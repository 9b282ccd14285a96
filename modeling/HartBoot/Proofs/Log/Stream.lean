import Mathlib.Data.List.Forall2
import HartBoot.Proofs.Console.Text
import HartBoot.Proofs.Text

/-!
The log as one stream of text. A record ends with the terminal sequence that ends its color, and nothing in its line
begins a terminal sequence. Within the line the first closing bracket behind the level closes the position, and the last
colon in the position stands before the line number (`line_inj`). So a stream is read off record by record
(`text_append_inj`), and two streams are the same exactly if their records tell the same (`log_decodable`).
-/
namespace HartBoot.Log

/-- The character that begins a terminal sequence. -/
def escape : Char := '\x1b'

namespace Record

/-- The message does not begin a terminal sequence, and the file name neither does nor closes the position. -/
structure Clean (r : Record) : Prop where
  message : escape ∉ r.message.toList
  file : ∀ file ∈ r.position.file, escape ∉ file.toList ∧ ']' ∉ file.toList

instance (r : Record) : Decidable r.Clean :=
  decidable_of_iff (escape ∉ r.message.toList ∧ ∀ file ∈ r.position.file, escape ∉ file.toList ∧ ']' ∉ file.toList)
    ⟨fun ⟨message, file⟩ => ⟨message, file⟩, fun ⟨message, file⟩ => ⟨message, file⟩⟩

/-- The records have the same level, the same message and the same position as it is written. -/
structure TellsAs (r s : Record) : Prop where
  level : r.level = s.level
  message : r.message = s.message
  file : r.position.file.getD "?" = s.position.file.getD "?"
  line : r.position.line.getD 0 = s.position.line.getD 0

/-- What the logger prints of a record. -/
def printed (r : Record) : Console.Step := .printInColor r.level.color [r.line]

/-! ### The parts of a record -/

/-- The terminal sequence that starts the color of a level, up to its last character. -/
def colorFront (l : Level) : List Char := escape :: '[' :: (toString l.color).toList

/-- The position as it is written between its brackets. -/
def place (p : Position) : List Char := (p.file.getD "?").toList ++ ':' :: (toString (p.line.getD 0)).toList

theorem toList_text (r : Record) :
    r.text.toList = colorFront r.level ++ 'm' :: (r.line.toList ++ escape :: "[0m".toList) := by
  simp [text, join_inColor, colorStart, startPieces, colorEnd, colorFront, escape]

theorem toList_line (r : Record) : r.line.toList =
    r.level.label.toList ++ '[' :: (place r.position ++ ']' :: ' ' :: (r.message.toList ++ ['\n'])) := by
  simp [line, Position.text, place]

theorem colorFront_injective {l m : Level} (same : colorFront l = colorFront m) : l = m := by
  cases l <;> cases m <;> first | rfl | exact absurd same (by decide)

theorem plain_colorFront (l : Level) : 'm' ∉ colorFront l := by
  cases l <;> decide

section
variable {r : Record} (clean : r.Clean)
include clean

theorem Clean.fileText : escape ∉ (r.position.file.getD "?").toList ∧ ']' ∉ (r.position.file.getD "?").toList := by
  cases found : r.position.file with
  | none => exact ⟨by decide, by decide⟩
  | some file => exact clean.file file found

theorem Clean.bracket : ']' ∉ place r.position := by
  simp only [place, List.mem_append, List.mem_cons, not_or]
  exact ⟨clean.fileText.2, by decide, notMem_toString (by decide) _⟩

theorem Clean.line : escape ∉ r.line.toList := by
  have label : escape ∉ r.level.label.toList := by cases r.level <;> decide
  have number : escape ∉ (toString (r.position.line.getD 0)).toList := notMem_toString (by decide) _
  simp only [toList_line, place, List.mem_append, List.mem_cons, List.not_mem_nil, not_or]
  exact ⟨label, by decide, ⟨clean.fileText.1, by decide, number⟩, by decide, by decide, clean.message, by decide,
    not_false⟩

end

/-! ### Reading a stream back -/

section
variable {r s : Record} (clean : r.Clean) (other : s.Clean)

theorem place_inj {p q : Position} (same : place p = place q) :
    p.file.getD "?" = q.file.getD "?" ∧ p.line.getD 0 = q.line.getD 0 := by
  have colon : ∀ n : Nat, ':' ∉ (toString n).toList := notMem_toString (by decide)
  obtain ⟨files, lines⟩ := append_cons_inj_last (colon _) (colon _) same
  exact ⟨String.toList_inj.mp files, toString_injective (String.toList_inj.mp lines)⟩

include clean other

theorem line_inj (level : r.level = s.level) (same : r.line.toList = s.line.toList) : r.TellsAs s := by
  rw [toList_line, toList_line, level] at same
  have behind := (List.cons.inj (List.append_cancel_left same)).2
  obtain ⟨places, rest⟩ := append_cons_inj_first clean.bracket other.bracket behind
  have messages := List.append_cancel_right (List.cons.inj rest).2
  obtain ⟨files, lines⟩ := place_inj places
  exact ⟨level, String.toList_inj.mp messages, files, lines⟩

/-- What follows a record in a stream does not matter for reading it. -/
theorem text_append_inj {more more' : List Char} (same : r.text.toList ++ more = s.text.toList ++ more') :
    r.TellsAs s ∧ more = more' := by
  simp only [toList_text, List.append_assoc, List.cons_append] at same
  obtain ⟨colors, behind⟩ := append_cons_inj_first (plain_colorFront r.level) (plain_colorFront s.level) same
  obtain ⟨lines, rest⟩ := append_cons_inj_first clean.line other.line behind
  exact ⟨line_inj clean other (colorFront_injective colors) lines, List.append_cancel_left rest⟩

end

theorem TellsAs.text_eq {r s : Record} (same : r.TellsAs s) : r.text = s.text := by
  obtain ⟨level, message, file, line⟩ := same
  simp only [text, Record.line, Position.text, level, message, file, line]

/-- The text of records one after the other. -/
def stream (records : List Record) : List Char := records.flatMap fun r => r.text.toList

theorem stream_cons (r : Record) (records : List Record) :
    stream (r :: records) = r.text.toList ++ stream records := List.flatMap_cons

theorem stream_cons_ne_nil (r : Record) (records : List Record) : stream (r :: records) ≠ [] := by
  simp [stream_cons, toList_text, colorFront]

/-- Two streams are read off record by record, from the first on. -/
theorem stream_inj {records others : List Record} (clean : ∀ r ∈ records, r.Clean) (clean' : ∀ r ∈ others, r.Clean) :
    stream records = stream others ↔ List.Forall₂ TellsAs records others := by
  induction records generalizing others with
  | nil =>
    cases others with
    | nil => exact iff_of_true rfl .nil
    | cons s others => exact iff_of_false (stream_cons_ne_nil s others).symm (fun paired => nomatch paired)
  | cons r records ih =>
    cases others with
    | nil => exact iff_of_false (stream_cons_ne_nil r records) (fun paired => nomatch paired)
    | cons s others =>
      rw [List.forall_mem_cons] at clean clean'
      rw [List.forall₂_cons, ← ih clean.2 clean'.2, stream_cons, stream_cons]
      constructor
      · intro same
        exact text_append_inj clean.1 clean'.1 same
      · rintro ⟨tells, rest⟩
        rw [tells.text_eq, rest]

/-! ### The stream of a console -/

/-- A console that takes everything has sent the stream of the records that were printed to it. -/
theorem toList_sentAll_printed (notice : List String) (records : List Record) :
    (Console.sentAll notice (records.map printed)).toList = stream records := by
  induction records with
  | nil => rfl
  | cons r records ih =>
    rw [List.map_cons, Console.sentAll, String.toList_append, ih, stream_cons]
    simp [printed, Console.Step.sent, text, join_inColor]

theorem unbounded_printed (records : List Record) : Console.AllUnbounded (records.map printed) := by
  induction records with
  | nil => exact trivial
  | cons r records ih => exact ⟨trivial, ih⟩

theorem performAll_printed (notice : List String) {c : Console} (free : c.locked = false) (accepts : c.Accepts)
    (records : List Record) :
    ∃ after items, Console.performAll notice c (records.map printed) = some (after, items) ∧
      after.text.toList = c.text.toList ++ stream records := by
  obtain ⟨after, items, performed, -, -, sent⟩ :=
    Console.performAll_sends notice free accepts _ (unbounded_printed records)
  exact ⟨after, items, performed, by rw [sent, String.toList_append, toList_sentAll_printed]⟩

end Record

/-- Whatever clean records are printed to a console whose port takes everything, they can be told from its text: two
    lists give the same text exactly if they are of one length and record for record have the same level, message, file
    and line, where a file that is not known counts as `?` and a line as 0. -/
theorem log_decodable (notice : List String) {c : Console} (free : c.locked = false) (accepts : c.Accepts)
    {records others : List Record} (clean : ∀ r ∈ records, r.Clean) (clean' : ∀ r ∈ others, r.Clean) :
    ∃ after items after' items',
      Console.performAll notice c (records.map Record.printed) = some (after, items) ∧
      Console.performAll notice c (others.map Record.printed) = some (after', items') ∧
      (after.text = after'.text ↔ List.Forall₂ Record.TellsAs records others) := by
  obtain ⟨after, items, performed, sent⟩ := Record.performAll_printed notice free accepts records
  obtain ⟨after', items', performed', sent'⟩ := Record.performAll_printed notice free accepts others
  refine ⟨after, items, after', items', performed, performed', ?_⟩
  rw [← String.toList_inj, sent, sent', List.append_cancel_left_eq, Record.stream_inj clean clean']

/-- Messages with line ends, brackets and colons, a file name with a colon, and places that are not known. -/
def sparse : List Record :=
  [⟨.warn, "a]:1] b\n[ INFO][?:0] c", ⟨some "d:2", none⟩⟩, ⟨.info, "", ⟨none, some 7⟩⟩]

/-- The same records with the places spelled out. -/
def spelled : List Record :=
  [⟨.warn, "a]:1] b\n[ INFO][?:0] c", ⟨some "d:2", some 0⟩⟩, ⟨.info, "", ⟨some "?", some 7⟩⟩]

theorem log_decodable_sparse :
    ((∀ r ∈ sparse, r.Clean) ∧ ∀ r ∈ spelled, r.Clean) ∧ sparse ≠ spelled ∧
    ∃ after items after' items',
      Console.performAll ["\n"] ⟨false, [⟨none, "up\n"⟩]⟩ (sparse.map Record.printed) = some (after, items) ∧
      Console.performAll ["\n"] ⟨false, [⟨none, "up\n"⟩]⟩ (spelled.map Record.printed) = some (after', items') ∧
      after.text = after'.text := by
  have clean : ∀ r ∈ sparse, r.Clean := by decide
  have clean' : ∀ r ∈ spelled, r.Clean := by decide
  obtain ⟨after, items, after', items', performed, performed', decoded⟩ :=
    log_decodable ["\n"] (c := ⟨false, [⟨none, "up\n"⟩]⟩) rfl ⟨"up\n", [], rfl⟩ clean clean'
  have tells : List.Forall₂ Record.TellsAs sparse spelled :=
    .cons ⟨rfl, rfl, rfl, rfl⟩ (.cons ⟨rfl, rfl, rfl, rfl⟩ .nil)
  exact ⟨⟨clean, clean'⟩, by decide, after, items, after', items', performed, performed', decoded.mpr tells⟩

end HartBoot.Log
