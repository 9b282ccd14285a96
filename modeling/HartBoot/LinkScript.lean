import HartBoot.Inspect
import HartBoot.Platform

/-!
The linker script of the image. It is rendered from a template in which placeholders stand for the start of
memory and the size of the stack; the build step writes it for the board's architecture and for no other.
-/
namespace HartBoot.LinkScript

/-- Replaces the occurrences of `pattern`, from left to right and without overlap, by `value`. The first
    `skip` characters belong to an occurrence that is already replaced. -/
def replaceFrom (pattern value : List Char) : Nat → List Char → List Char
  | _, [] => []
  | skip + 1, _ :: text => replaceFrom pattern value skip text
  | 0, c :: text =>
    if pattern.isPrefixOf (c :: text) then value ++ replaceFrom pattern value (pattern.length - 1) text
    else c :: replaceFrom pattern value 0 text

def replace (pattern value text : List Char) : List Char := replaceFrom pattern value 0 text

def ramStartMark : List Char := "%RAM_START%".toList

def stackSizeMark : List Char := "%STACK_SIZE%".toList

def render (template : List Char) : List Char :=
  replace stackSizeMark (decimal Platform.bootStackSize).toList
    (replace ramStartMark (decimal Platform.imageStart).toList template)

/-- What a build step finds: its variables, and the files it works on. -/
structure Environment where
  manifestDir : Option String
  outDir : Option String
  targetArch : Option String
  template : Option String
  outDirExists : Bool

/-- Why a build step breaks off. -/
inductive Failure
  | unsetVariable
  | noSuchFile
deriving DecidableEq

def Failure.message : Failure → String
  | .unsetVariable => failedResult "NotPresent"
  | .noSuchFile => failedResult (recordText "Os"
    [("code", "2"), ("kind", "NotFound"), ("message", quoted "No such file or directory")])

/-- What a build step did: the lines it told the build, the script it wrote and why it broke off, if it did. -/
structure Outcome where
  lines : List String
  script : Option String
  failure : Option Failure
deriving DecidableEq

def architecture : String := "riscv64"

/-- Tells the build when to run the step again. -/
def rerunLine : String := "cargo:rerun-if-changed=linker.ld"

/-- The path of a file in a directory. A slash goes between them, unless the directory is the empty path or ends in
    one. -/
def pathIn (dir file : String) : String :=
  match dir.toList.getLast? with
  | none => file
  | some '/' => dir ++ file
  | some _ => dir ++ "/" ++ file

/-- Tells the build to link with the script written to a directory. -/
def linkLine (dir : String) : String := "cargo:rustc-link-arg=-T" ++ pathIn dir "linker.ld"

/-- The build step. Every variable is asked for before anything else is done. -/
def build (env : Environment) : Outcome :=
  match env.manifestDir, env.outDir, env.targetArch with
  | some _, some outDir, some arch =>
    if arch ≠ architecture then ⟨[rerunLine], none, none⟩
    else
      match env.template with
      | none => ⟨[rerunLine], none, some .noSuchFile⟩
      | some template =>
        if env.outDirExists then
          ⟨[rerunLine, linkLine outDir], some (String.ofList (render template.toList)), none⟩
        else ⟨[rerunLine], none, some .noSuchFile⟩
  | _, _, _ => ⟨[], none, some .unsetVariable⟩

end HartBoot.LinkScript
