import HartBoot.Proofs.Console.Lock
import Mathlib.Data.List.GetD
import Mathlib.Data.Nat.Find

/-!
What the ports of a console receive. A `Ledger` is the account that a script gives of its output by itself, with no
lock in it: a print delivers the most of its pieces that fit to the port installed last, and a print that a trap
strikes delivers before anything that the handler prints. Every step on a console with a free lock follows its ledger
(`perform_follows`), and so does a script on a new console with all its steps, at the top and in handlers
(`output_accounted`).
-/
namespace HartBoot.Console

/-! ### Pieces that fit -/

/-- The pieces fit into the room together; anything fits where there is no bound. -/
def Fits (room : Option Nat) (pieces : List String) : Prop :=
  ∀ bytes ∈ room, (String.join pieces).utf8ByteSize ≤ bytes

instance (room : Option Nat) (pieces : List String) : Decidable (Fits room pieces) :=
  inferInstanceAs (Decidable (∀ bytes ∈ room, (String.join pieces).utf8ByteSize ≤ bytes))

/-- The most of the pieces that fit, from the first on. -/
def fitting (room : Option Nat) (pieces : List String) : List String :=
  pieces.take (Nat.findGreatest (fun count => Fits room (pieces.take count)) pieces.length)

/-- The room that is left when the pieces have been written. -/
def roomAfter (room : Option Nat) (pieces : List String) : Option Nat :=
  room.map (· - (String.join pieces).utf8ByteSize)

@[simp] theorem roomAfter_nil (room : Option Nat) : roomAfter room [] = room := by
  cases room <;> simp [roomAfter]

theorem roomAfter_cons (room : Option Nat) (piece : String) (pieces : List String) :
    roomAfter (roomAfter room [piece]) pieces = roomAfter room (piece :: pieces) := by
  cases room <;> simp [roomAfter, Nat.sub_sub]

@[simp] theorem fits_nil (room : Option Nat) : Fits room [] := by
  simp [Fits]

theorem fits_cons {room : Option Nat} {piece : String} {pieces : List String} :
    Fits room (piece :: pieces) ↔ Fits room [piece] ∧ Fits (roomAfter room [piece]) pieces := by
  cases room with
  | none => simp [Fits, roomAfter]
  | some bytes =>
    simp only [Fits, roomAfter, Option.map_some, Option.mem_def, Option.some.injEq, forall_eq', String.join_cons,
      String.join_nil, String.append_empty, String.utf8ByteSize_append]
    omega

theorem fitting_refused {room : Option Nat} {piece : String} (refused : ¬Fits room [piece]) (pieces : List String) :
    fitting room (piece :: pieces) = [] := by
  have none_fit : Nat.findGreatest (fun count => Fits room ((piece :: pieces).take count)) (pieces.length + 1) = 0 := by
    rw [Nat.findGreatest_eq_zero_iff]
    rintro (_ | count) positive _ fits
    · exact absurd positive (Nat.lt_irrefl 0)
    · exact refused (fits_cons.mp fits).1
  rw [fitting, List.length_cons, none_fit, List.take_zero]

theorem fitting_cons {room : Option Nat} {piece : String} (fits : Fits room [piece]) (pieces : List String) :
    fitting room (piece :: pieces) = piece :: fitting (roomAfter room [piece]) pieces := by
  have one_more : Nat.findGreatest (fun count => Fits room ((piece :: pieces).take count)) (pieces.length + 1) =
      Nat.findGreatest (fun count => Fits (roomAfter room [piece]) (pieces.take count)) pieces.length + 1 := by
    rw [Nat.findGreatest_eq_iff]
    refine ⟨Nat.succ_le_succ (Nat.findGreatest_le _), ?_, ?_⟩
    · intro _
      have most : Fits (roomAfter room [piece]) (pieces.take (Nat.findGreatest _ pieces.length)) :=
        Nat.findGreatest_spec (P := fun count => Fits (roomAfter room [piece]) (pieces.take count)) (Nat.zero_le _)
          (fits_nil _)
      exact fits_cons.mpr ⟨fits, most⟩
    · rintro (_ | count) more within fitsMore
      · exact absurd more (Nat.not_lt_zero _)
      · exact Nat.findGreatest_is_greatest (Nat.lt_of_succ_lt_succ more) (Nat.le_of_succ_le_succ within)
          (fits_cons.mp fitsMore).2
  rw [fitting, List.length_cons, one_more, List.take_succ_cons, fitting]

theorem write_eq (sink : Sink) (piece : String) :
    sink.write piece =
      if Fits sink.room [piece] then some ⟨roomAfter sink.room [piece], sink.received ++ piece⟩ else none := by
  obtain ⟨room, received⟩ := sink
  cases room <;> simp [Sink.write, Fits, roomAfter]

/-- A sink takes the most pieces that fit, and tells whether those are all. -/
theorem writeAll_eq (sink : Sink) (pieces : List String) :
    sink.writeAll pieces =
      (⟨roomAfter sink.room (fitting sink.room pieces), sink.received ++ String.join (fitting sink.room pieces)⟩,
        decide (Fits sink.room pieces)) := by
  induction pieces generalizing sink with
  | nil => simp [Sink.writeAll, fitting]
  | cons piece pieces ih =>
    rw [Sink.writeAll, write_eq]
    by_cases fits : Fits sink.room [piece]
    · have all : Fits sink.room (piece :: pieces) ↔ Fits (roomAfter sink.room [piece]) pieces :=
        fits_cons.trans (and_iff_right fits)
      rw [if_pos fits, fitting_cons fits]
      simp only [ih, all, roomAfter_cons, String.join_cons, String.append_assoc]
    · have too_long : ¬Fits sink.room (piece :: pieces) := fun all => fits (fits_cons.mp all).1
      rw [if_neg fits, fitting_refused fits]
      simp [too_long]

/-! ### The ledger of a script -/

/-- A port by its number, in the order of installation, and the room that it has left, if that is bounded. -/
structure Port where
  number : Nat
  room : Option Nat

/-- Text that a print delivered to the port of that number. -/
structure Delivery where
  port : Nat
  text : String

/-- The port in use, which is the newest, and what has been delivered, in program order. -/
structure Ledger where
  inUse : Option Port
  delivered : List Delivery

namespace Ledger

def empty : Ledger := ⟨none, []⟩

def install (l : Ledger) (room : Option Nat) : Ledger :=
  { l with inUse := some ⟨l.inUse.elim 0 (·.number + 1), room⟩ }

/-- Delivers the pieces that fit to the port in use, and nothing if there is none. -/
def print (l : Ledger) (pieces : List String) : Ledger :=
  match l.inUse with
  | none => l
  | some port =>
    let taken := fitting port.room pieces
    ⟨some { port with room := roomAfter port.room taken }, l.delivered ++ [⟨port.number, String.join taken⟩]⟩

/-- There is a port in use and all the pieces fit. -/
def takes (l : Ledger) (pieces : List String) : Bool := l.inUse.any fun port => decide (Fits port.room pieces)

mutual

/-- The ledger after a step. A print that is struck has delivered what fits of its pieces, and the handler's first
    reclaim prints the notice. -/
def after (notice : List String) (l : Ledger) : Step → Ledger
  | .install room => l.install room
  | .print pieces => l.print pieces
  | .printInColor color pieces => l.print (Log.inColor color pieces)
  | .reclaim => l
  | .strike moment pieces handler =>
    if moment.comes (l.takes pieces) then afterAll notice ((l.print pieces).print notice) handler else l.print pieces

/-- The ledger after steps one after the other. -/
def afterAll (notice : List String) (l : Ledger) : List Step → Ledger
  | [] => l
  | step :: steps => afterAll notice (l.after notice step) steps

end

end Ledger

/-- All that was delivered to a port. -/
def textTo (port : Nat) (delivered : List Delivery) : String :=
  String.join ((delivered.filter (·.port = port)).map (·.text))

/-! ### What a console shows -/

/-- The newest sink is the port in use. -/
def port (c : Console) : Option Port :=
  match c.sinks with
  | [] => none
  | sink :: older => some ⟨older.length, sink.room⟩

/-- The text that a port has received, none if it is not installed yet. -/
def textOf (c : Console) (port : Nat) : String := c.received.getD port ""

/-- The ledger of a console from now on. -/
def ledger (c : Console) : Ledger := ⟨c.port, []⟩

/-- From one list of received texts to a later one, only the newest port has received more, at its end, and new ports
    have come behind it. -/
structure Grown (old new : List String) : Prop where
  ports : old.length ≤ new.length
  appended : ∀ port, ∃ more, new.getD port "" = old.getD port "" ++ more
  frozen : ∀ port, port + 1 < old.length → new.getD port "" = old.getD port ""

/-- The console has the port in use of the ledger, and what was delivered behind the texts of `base`. -/
structure Shows (base : Nat → String) (l : Ledger) (c : Console) : Prop where
  inUse : c.port = l.inUse
  texts : ∀ port, c.textOf port = base port ++ textTo port l.delivered

/-- What was observed during a run shows whole deliveries of the ledger, from the first on. -/
def ShowsPart (base : Nat → String) (l : Ledger) (received : List String) : Prop :=
  ∃ made, made <+: l.delivered ∧ ∀ port, received.getD port "" = base port ++ textTo port made

/-- What was observed before a run, by its items and after it has only grown from each moment to all later ones. -/
def Observed (old : List String) (items : List Item) (new : List String) : Prop :=
  (old :: items.map (·.received) ++ [new]).Pairwise Grown

/-- A run from `c` that ends with the lock free and has followed the ledger. -/
structure Follows (base : Nat → String) (l : Ledger) (c : Console) (items : List Item) (after : Console) : Prop where
  free : after.locked = false
  shows : Shows base l after
  observed : Observed c.received items after.received
  parts : ∀ item ∈ items, ShowsPart base l item.received

/-- A run from `c` came to its end and has followed the ledger. -/
def EndsAs (base : Nat → String) (l : Ledger) (c : Console) (result : Option (Console × List Item)) : Prop :=
  ∃ after items, result = some (after, items) ∧ Follows base l c items after

theorem Grown.refl (texts : List String) : Grown texts texts where
  ports := Nat.le_refl _
  appended := fun port => ⟨"", by simp⟩
  frozen := fun _ _ => rfl

theorem Grown.trans {old mid new : List String} (first : Grown old mid) (second : Grown mid new) : Grown old new where
  ports := Nat.le_trans first.ports second.ports
  appended := fun port => by
    obtain ⟨more, some_more⟩ := first.appended port
    obtain ⟨rest, the_rest⟩ := second.appended port
    exact ⟨more ++ rest, by rw [the_rest, some_more, String.append_assoc]⟩
  frozen := fun port older => by
    rw [second.frozen port (Nat.lt_of_lt_of_le older first.ports), first.frozen port older]

theorem getD_newest (older : List String) (text : String) (port : Nat) :
    (older ++ [text]).getD port "" = if port = older.length then text else older.getD port "" := by
  rcases Nat.lt_trichotomy port older.length with below | rfl | above
  · rw [List.getD_append _ _ _ _ below, if_neg (Nat.ne_of_lt below)]
  · simp
  · have past : (older ++ [text]).length ≤ port := by rw [List.length_append, List.length_singleton]; omega
    rw [if_neg (Nat.ne_of_gt above), List.getD_eq_default _ _ past, List.getD_eq_default _ _ (Nat.le_of_lt above)]

theorem getD_more (older : List String) (text more : String) (port : Nat) :
    (older ++ [text ++ more]).getD port "" =
      (older ++ [text]).getD port "" ++ if port = older.length then more else "" := by
  rw [getD_newest, getD_newest]
  split <;> simp

theorem getD_installed (texts : List String) (port : Nat) : (texts ++ [""]).getD port "" = texts.getD port "" := by
  rw [getD_newest]
  split
  · rw [List.getD_eq_default _ _ (by omega)]
  · rfl

theorem Grown.installed (texts : List String) : Grown texts (texts ++ [""]) where
  ports := by simp
  appended := fun port => ⟨"", by rw [getD_installed, String.append_empty]⟩
  frozen := fun port _ => getD_installed texts port

theorem Grown.printed (older : List String) (text more : String) :
    Grown (older ++ [text]) (older ++ [text ++ more]) where
  ports := by simp
  appended := fun port => ⟨_, getD_more older text more port⟩
  frozen := fun port before => by
    rw [List.length_append, List.length_singleton] at before
    rw [getD_more, if_neg (by omega), String.append_empty]

/-! ### The operations -/

theorem received_cons (locked : Bool) (sink : Sink) (older : List Sink) :
    (⟨locked, sink :: older⟩ : Console).received = (older.map (·.received)).reverse ++ [sink.received] := by
  simp [received]

theorem textTo_print {l : Ledger} {newest : Port} (inUse : l.inUse = some newest) (pieces : List String) (port : Nat) :
    textTo port (l.print pieces).delivered =
      textTo port l.delivered ++ if port = newest.number then String.join (fitting newest.room pieces) else "" := by
  simp only [Ledger.print, inUse, textTo, List.filter_append, List.map_append, String.join_append]
  by_cases same : port = newest.number
  · simp [same]
  · simp [same, Ne.symm same]

section
variable {base : Nat → String} {l : Ledger} {c : Console}

theorem Shows.unlock (shows : Shows base l c) : Shows base l c.unlock := ⟨shows.inUse, shows.texts⟩

theorem install_shows (free : c.locked = false) (shows : Shows base l c) (room : Option Nat) :
    ∃ next, c.install room = some next ∧ next.locked = false ∧ Shows base (l.install room) next ∧
      Grown c.received next.received := by
  have received_next : (⟨false, ⟨room, ""⟩ :: c.sinks⟩ : Console).received = c.received ++ [""] := received_cons ..
  refine ⟨⟨false, ⟨room, ""⟩ :: c.sinks⟩, by simp [install, lock_free free, Console.unlock], rfl, ⟨?_, ?_⟩, ?_⟩
  · rw [Ledger.install, ← shows.inUse, Console.port, Console.port]
    cases c.sinks <;> rfl
  · intro port
    rw [textOf, received_next, getD_installed]
    exact shows.texts port
  · rw [received_next]
    exact Grown.installed c.received

/-- A print writes what the ledger delivers, and is complete if the ledger takes everything. -/
theorem hold_shows (free : c.locked = false) (shows : Shows base l c) (pieces : List String) :
    ∃ held, c.hold pieces = some (held, l.takes pieces) ∧ held.locked = true ∧ Shows base (l.print pieces) held ∧
      Grown c.received held.received := by
  obtain ⟨locked, sinks⟩ := c
  cases free
  cases sinks with
  | nil =>
    have no_port : l.inUse = none := shows.inUse.symm
    refine ⟨⟨true, []⟩, by simp [hold, lock, Ledger.takes, no_port], rfl, ?_, Grown.refl _⟩
    simp only [Ledger.print, no_port]
    exact ⟨shows.inUse, shows.texts⟩
  | cons sink older =>
    have newest : l.inUse = some ⟨older.length, sink.room⟩ := shows.inUse.symm
    have many : (older.map (·.received)).reverse.length = older.length := by simp
    refine ⟨⟨true, (sink.writeAll pieces).1 :: older⟩, ?_, rfl, ⟨?_, ?_⟩, ?_⟩
    · simp [hold, lock, Ledger.takes, newest, writeAll_eq]
    · simp [Console.port, Ledger.print, newest, writeAll_eq]
    · intro port
      have before := shows.texts port
      rw [textOf, received_cons] at before
      rw [textOf, received_cons, writeAll_eq, getD_more, before, textTo_print newest, many, String.append_assoc]
    · rw [received_cons, received_cons, writeAll_eq]
      exact Grown.printed ..

theorem print_shows (free : c.locked = false) (shows : Shows base l c) (pieces : List String) :
    ∃ next, c.print pieces = some next ∧ next.locked = false ∧ Shows base (l.print pieces) next ∧
      Grown c.received next.received := by
  obtain ⟨held, holds, _, shown, grown⟩ := hold_shows free shows pieces
  exact ⟨held.unlock, by simp [Console.print, holds], rfl, shown.unlock, grown⟩

/-- The handler of a print that was struck prints the notice first. -/
theorem reclaim_shows (held : c.locked = true) (shows : Shows base l c) (notice : List String) :
    ∃ freed, c.reclaimWith notice = some (freed, true) ∧ freed.locked = false ∧ Shows base (l.print notice) freed ∧
      Grown c.received freed.received := by
  obtain ⟨freed, printed, free, shown, grown⟩ := print_shows (c := c.unlock) rfl shows.unlock notice
  exact ⟨freed, by simp [reclaimWith, reclaim, held, printed], free, shown, grown⟩

end

/-! ### Steps and scripts -/

theorem Ledger.print_grows (l : Ledger) (pieces : List String) : l.delivered <+: (l.print pieces).delivered := by
  rw [print]
  cases l.inUse with
  | none => exact List.prefix_rfl
  | some port => exact List.prefix_append ..

mutual

theorem Ledger.after_grows (notice : List String) (l : Ledger) :
    ∀ step : Step, l.delivered <+: (l.after notice step).delivered
  | .install _ => List.prefix_rfl
  | .print pieces => l.print_grows pieces
  | .printInColor color pieces => l.print_grows (Log.inColor color pieces)
  | .reclaim => List.prefix_rfl
  | .strike moment pieces handler => by
    have written : l.delivered <+: (l.print pieces).delivered := l.print_grows pieces
    rw [after]
    split
    · exact (written.trans (print_grows _ notice)).trans (afterAll_grows notice _ handler)
    · exact written

theorem Ledger.afterAll_grows (notice : List String) (l : Ledger) :
    ∀ steps : List Step, l.delivered <+: (l.afterAll notice steps).delivered
  | [] => List.prefix_rfl
  | step :: steps => (after_grows notice l step).trans (afterAll_grows notice _ steps)

end

theorem observed_one {old new : List String} (grown : Grown old new) (act : Act) : Observed old [⟨act, new⟩] new := by
  simp [Observed, grown, Grown.refl]

theorem observed_append {old mid new : List String} {items more : List Item} (first : Observed old items mid)
    (second : Observed mid more new) : Observed old (items ++ more) new := by
  obtain ⟨before, _, to_mid⟩ := List.pairwise_append.mp first
  obtain ⟨from_mid, behind⟩ := List.pairwise_cons.mp second
  rw [Observed, List.map_append, ← List.cons_append, List.append_assoc]
  refine List.pairwise_append.mpr ⟨before, behind, ?_⟩
  intro earlier at_first later at_second
  exact (to_mid earlier at_first mid (List.mem_singleton_self mid)).trans (from_mid later at_second)

section
variable {base : Nat → String} {l final : Ledger} {c mid after : Console} {items rest : List Item}

theorem Shows.part (shows : Shows base l c) (grows : l.delivered <+: final.delivered) :
    ShowsPart base final c.received := ⟨l.delivered, grows, shows.texts⟩

theorem ShowsPart.longer {received : List String} (part : ShowsPart base l received)
    (grows : l.delivered <+: final.delivered) : ShowsPart base final received := by
  obtain ⟨made, first, texts⟩ := part
  exact ⟨made, first.trans grows, texts⟩

/-- An operation that shows what the ledger says is observed once. -/
theorem follows_one (free : after.locked = false) (shows : Shows base l after) (grown : Grown c.received after.received)
    (act : Act) : Follows base l c [⟨act, after.received⟩] after where
  free := free
  shows := shows
  observed := observed_one grown act
  parts := fun item member => by
    rw [List.mem_singleton.mp member]
    exact shows.part List.prefix_rfl

theorem Follows.append (first : Follows base l c items mid) (second : Follows base final mid rest after)
    (grows : l.delivered <+: final.delivered) : Follows base final c (items ++ rest) after where
  free := second.free
  shows := second.shows
  observed := observed_append first.observed second.observed
  parts := fun item member => by
    rcases List.mem_append.mp member with before | behind
    · exact (first.parts item before).longer grows
    · exact second.parts item behind

end

mutual

theorem perform_follows (notice : List String) {base : Nat → String} {l : Ledger} {c : Console}
    (free : c.locked = false) (shows : Shows base l c) :
    ∀ step : Step, EndsAs base (l.after notice step) c (perform notice c step)
  | .install room => by
    obtain ⟨next, installed, left, shown, grown⟩ := install_shows free shows room
    exact ⟨next, _, by simp [perform, installed], follows_one left shown grown .installed⟩
  | .print pieces => by
    obtain ⟨next, printed, left, shown, grown⟩ := print_shows free shows pieces
    exact ⟨next, _, by simp [perform, printed], follows_one left shown grown .printed⟩
  | .printInColor color pieces => by
    obtain ⟨next, printed, left, shown, grown⟩ := print_shows free shows (Log.inColor color pieces)
    exact ⟨next, _, by simp [perform, printed], follows_one left shown grown .printedInColor⟩
  | .reclaim =>
    ⟨c, _, by simp [perform, reclaim_free free], follows_one free shows (Grown.refl _) (.reclaimed false)⟩
  | .strike moment pieces handler => by
    obtain ⟨held, holds, locked, shown, grown⟩ := hold_shows free shows pieces
    rw [Ledger.after]
    cases struck : moment.comes (l.takes pieces) with
    | false =>
      refine ⟨held.unlock, [⟨.trapped false, held.unlock.received⟩], by simp [perform, holds, struck], ?_⟩
      exact follows_one rfl shown.unlock grown (.trapped false)
    | true =>
      obtain ⟨freed, first, left, noticed, more⟩ := reclaim_shows locked shown notice
      obtain ⟨after, items, handled, inside⟩ := performAll_follows notice left noticed handler
      refine ⟨after.unlock, [⟨.handler true, freed.received⟩] ++ items ++ [⟨.trapped true, after.unlock.received⟩],
        by simp [perform, holds, struck, first, handled], ?_⟩
      -- The pieces and the notice stand in the ledger before everything that the handler delivers.
      have reclaimed := follows_one left noticed (grown.trans more) (.handler true)
      have same : Grown after.received after.unlock.received := Grown.refl _
      have ended := follows_one rfl inside.shows.unlock same (.trapped true)
      rw [if_pos rfl]
      exact (reclaimed.append inside (Ledger.afterAll_grows ..)).append ended List.prefix_rfl

theorem performAll_follows (notice : List String) {base : Nat → String} {l : Ledger} {c : Console}
    (free : c.locked = false) (shows : Shows base l c) :
    ∀ steps : List Step, EndsAs base (l.afterAll notice steps) c (performAll notice c steps)
  | [] => ⟨c, [], rfl, free, shows, by simp [Observed, Grown.refl], by simp⟩
  | step :: steps => by
    obtain ⟨next, items, performed, first⟩ := perform_follows notice free shows step
    obtain ⟨after, rest, followed, second⟩ := performAll_follows notice first.free first.shows steps
    refine ⟨after, items ++ rest, by simp [performAll, performed, followed], ?_⟩
    exact first.append second (Ledger.afterAll_grows ..)

end

theorem shows_ledger (c : Console) : Shows c.textOf c.ledger c := ⟨rfl, fun _ => by simp [ledger, textTo]⟩

/-- A script on a new console delivers what its ledger says and nothing else, and so does each of its steps, at the top
    or in a handler, to the console that it starts on. Each print gives the newest port the most of its pieces that
    fit, in program order; what a port has received only grows, and no more once a newer one is installed. -/
theorem output_accounted (notice : List String) (script : List Step) :
    EndsAs (fun _ => "") (Ledger.empty.afterAll notice script) new (performAll notice new script) ∧
      ∀ c step, Starts notice new script c step →
        EndsAs c.textOf (c.ledger.after notice step) c (perform notice c step) := by
  refine ⟨performAll_follows notice rfl ⟨rfl, fun _ => rfl⟩ script, ?_⟩
  intro c step start
  exact perform_follows notice (starts_free start rfl) (shows_ledger c) step

/-- Prints that are struck without a port and after a refused piece, and a color that is cut short. -/
example :
    let script : List Step := [.strike .locked ["lost"]
      [.install (some 3), .strike .locked ["no room"] [.printInColor 31 ["red"]]]]
    (Ledger.empty.afterAll ["\n"] script).delivered = [⟨0, ""⟩, ⟨0, "\n"⟩, ⟨0, "\x1b["⟩] := by
  rfl

/-- A print to a small port is struck; the handler installs a larger one, on which it prints and is struck itself. -/
def portsInTraps : List Step :=
  [.print ["lost"], .install (some 4),
    .trap ["ab"] [.print ["c", "no room", "d"], .install (some 9), .trap ["xy"] [.print ["z"], .install none]],
    .print ["end"]]

/-- The deliveries of the whole script, and the print in the handler of its second trap. -/
theorem output_accounted_portsInTraps :
    (Ledger.empty.afterAll ["\n"] portsInTraps).delivered =
        [⟨0, "ab"⟩, ⟨0, "\n"⟩, ⟨0, "c"⟩, ⟨1, "xy"⟩, ⟨1, "\n"⟩, ⟨1, "z"⟩, ⟨2, "end"⟩] ∧
      ∃ c, Starts ["\n"] new portsInTraps c (.print ["z"]) ∧
        EndsAs c.textOf (c.ledger.after ["\n"] (.print ["z"])) c (perform ["\n"] c (.print ["z"])) := by
  have start : ∃ c, Starts ["\n"] new portsInTraps c (.print ["z"]) :=
    ⟨_, .later rfl (.later rfl (.inHandler rfl rfl rfl (.later rfl (.later rfl (.inHandler rfl rfl rfl .first)))))⟩
  obtain ⟨c, start⟩ := start
  exact ⟨rfl, c, start, (output_accounted ["\n"] portsInTraps).2 c _ start⟩

end HartBoot.Console
