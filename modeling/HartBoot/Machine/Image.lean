import HartBoot.Machine.Assembly
import HartBoot.Trap.Cause

/-!
The image that the board boots: the reset vector, the trap vector with its handler, early initialisation and
a main routine that is given as a script. `Image.run` runs a hart from one of the places where it can enter
the image.
-/
namespace HartBoot.Machine

/-- The first code after reset. Harts that are not elected park; the boot hart makes addressing bare,
    loads the global pointer, clears memory word by word and takes its stack. -/
def resetVector : List Line :=
  [.code (.csrr .t0 .mhartid), .code (.li .t1 Platform.bootHart), .code (.beq .t0 .t1 1), .code (.tail .park),
    .label 1,
    .code (.csrw .satp .zero),
    .code (.la .gp .globalPointer),
    .code (.la .t0 .bssStart), .code (.la .t1 .bssEnd), .code (.bgeu .t0 .t1 3),
    .label 2,
    .code (.sd .zero .t0 0), .code (.addi .t0 .t0 (BitVec.ofNat 64 Platform.clearStep)),
    .code (.bltu .t0 .t1 2),
    .label 3,
    .code (.la .sp .stackEnd), .code (.tail .bootDescend)]

/-- The code that traps lead to, which hands the cause, the address and the value of the trap over. -/
def trapCode : List Line :=
  [.code (.csrr .a0 .mcause), .code (.csrr .a1 .mepc), .code (.csrr .a2 .mtval), .code (.tail .handler)]

inductive MainStep
  | log (level : Log.Level) (message : String)
  | setFilter (filter : Log.Filter)
  | print (message : String)
  | printInColor (color : Nat) (message : String)
  | waitForInterrupt
  | diverge
  | trap (cause epc value : Word)
  /-- A trap strikes a print that has written its pieces and still holds the console. -/
  | interruptedPrint (pieces : List String) (cause epc value : Word)
  /-- The same, where a color was started before the pieces. -/
  | interruptedPrintInColor (color : Nat) (pieces : List String) (cause epc value : Word)

/-- An image as linked: its addresses, its logging and its main routine. -/
structure Image where
  symbols : Symbol → Word
  earlyInit : Word
  main : Word
  trapVector : Word
  filter : Log.Filter
  mainSteps : List MainStep

namespace Image
variable (image : Image)

def layout : Layout where
  globalPointer := image.symbols .globalPointer
  bss := ⟨image.symbols .bssStart, image.symbols .bssEnd⟩
  stackEnd := image.symbols .stackEnd
  earlyInit := image.earlyInit
  main := image.main
  trapVector := .direct image.trapVector

/-- The lines that the reset vector performs at most: each line once, and four for each word that it clears. -/
def resetLines : Nat :=
  let bytes := (image.symbols .bssEnd).toNat - (image.symbols .bssStart).toNat
  4 * ((bytes + (Platform.clearStep - 1)) / Platform.clearStep) + resetVector.length

/-- The reset vector, up to the code it leaves for. -/
def runResetVector : BoardM Target := do
  let (target, _) ← runCode image.symbols resetVector image.resetLines
  return target

/-- Early initialisation: console, logging and timer, then an account of the layout and of what is wrong with
    it. -/
def runEarlyInit : BoardM Unit := do
  onConsole fun c => (c.install none).map (·, ())
  modify fun b => { b with
    uarts := b.uarts ++ [Platform.uartBase]
    filter := image.filter
    comparator := BitVec.allOnes 64 }
  let l := image.layout
  log .info ("hart " ++ decimal ((← get).csr .mhartid) ++ ": early init")
  log .info (".bss " ++ hex l.bss.start ++ " - " ++ hex l.bss.stop)
  log .info ("boot stack top " ++ hex l.stackEnd)
  log .info ("global pointer " ++ hex l.globalPointer)
  log .info ("trap vector " ++ hex l.trapVector.address)
  log .info ("main routine " ++ hex l.main)
  if let .error e := l.validate then
    log .error ("boot layout: " ++ e.message)

def trapReport (cause epc value : Word) : String :=
  "unhandled " ++ (Trap.Cause.ofBits cause).text ++ " at " ++ hex epc ++ ", mtval " ++ hex value

/-- The trap handler: takes the console back, on a fresh line if a print was interrupted, reports the trap
    and parks. -/
def runHandler {α : Type} (cause epc value : Word) : BoardM α := do
  let _ ← onConsole (·.reclaimWith ["\n"])
  log .error (trapReport cause epc value)
  park

/-- A trap: the hart goes to the address in its trap vector register. Only the image's own trap vector comes
    to anything. -/
def trap {α : Type} (cause epc value : Word) : BoardM α := do
  modify fun b => ((b.setCsr .mcause cause).setCsr .mepc epc).setCsr .mtval value
  if (← get).csr .mtvec = image.trapVector then
    let (_, r) ← runCode image.symbols trapCode trapCode.length
    runHandler (r .a0) (r .a1) (r .a2)
  else throw (.ended .endless)

/-- A print that a trap strikes while it holds the console, when it has written these pieces. -/
def runInterruptedPrint (pieces : List String) (cause epc value : Word) : BoardM Unit := do
  let _ ← onConsole (·.hold pieces)
  image.trap cause epc value

def runMainStep : MainStep → BoardM Unit
  | .log level message => Machine.log level message
  | .setFilter filter => modify fun b => { b with filter := filter }
  | .print message => Machine.print [message]
  | .printInColor color message => Machine.print (Log.inColor color [message])
  | .waitForInterrupt => Machine.waitForInterrupt
  | .diverge => throw (.ended .diverged)
  | .trap cause epc value => image.trap cause epc value
  | .interruptedPrint pieces cause epc value => image.runInterruptedPrint pieces cause epc value
  | .interruptedPrintInColor color pieces cause epc value =>
    image.runInterruptedPrint (Log.startPieces color ++ pieces) cause epc value

def runMain : BoardM Unit := image.mainSteps.forM image.runMainStep

/-- Runs the routine at an address. At an address that is not one of the image's own routines there is one that
    comes back at once. -/
def runRoutine (entry : Word) : BoardM Unit :=
  if entry = image.earlyInit then image.runEarlyInit
  else if entry = image.main then image.runMain
  else pure ()

/-- The descent into early initialisation and the main routine, after the reset vector. -/
def bootDescend : BoardM Unit := do
  let _ ← (Boot.afterPrologue image.layout).descend (opsWith image.runRoutine)

/-- Where a hart can enter the image. -/
inductive Entry
  | reset
  | bootDescend
  | earlyInit
  | main
  | park
deriving DecidableEq

/-- The code that a hart performs from a place where it enters the image. -/
def code : Entry → BoardM Unit
  | .reset => do
    match ← image.runResetVector with
    | .bootDescend => image.bootDescend
    | .park => park
    | .handler => throw (.ended .endless)
  | .bootDescend => image.bootDescend
  | .earlyInit => image.runEarlyInit
  | .main => image.runMain
  | .park => park

/-- Runs a hart from a place where it enters the image, and gives what stopped it. -/
def run (entry : Entry) (b : Board) : Option Stop × Board :=
  match image.code entry b with
  | .ok _ b => (none, b)
  | .error stop b => (some stop, b)

end Image
end HartBoot.Machine
