import HartBoot.LinkScript
import HartBoot.Proofs.Text

/-!
The linker script that is rendered from a template. A placeholder that is replaced leaves no occurrence of itself
behind and creates none of another one, because the numbers share no character with the placeholders
(`infix_replaceFrom`). A template that is written as a sequence of placeholders and literal stretches is rendered piece
by piece, unless a stretch between two placeholders reads as a placeholder together with their percent signs
(`replace_segments`).
-/
namespace HartBoot.LinkScript

/-! ### Replacement -/

section
variable {pattern value : List Char}

theorem replaceFrom_matched {c : Char} {text : List Char} (starts : pattern <+: c :: text) :
    replaceFrom pattern value 0 (c :: text) = value ++ replaceFrom pattern value (pattern.length - 1) text := by
  rw [replaceFrom, if_pos (List.isPrefixOf_iff_prefix.mpr starts)]

theorem replaceFrom_other {c : Char} {text : List Char} (other : ¬ pattern <+: c :: text) :
    replaceFrom pattern value 0 (c :: text) = c :: replaceFrom pattern value 0 text := by
  rw [replaceFrom, if_neg (mt List.isPrefixOf_iff_prefix.mp other)]

theorem replaceFrom_skip (skipped text : List Char) :
    replaceFrom pattern value skipped.length (skipped ++ text) = replaceFrom pattern value 0 text := by
  induction skipped with
  | nil => rfl
  | cons c skipped ih => exact ih

/-- An occurrence at the front is replaced as a whole. -/
theorem replace_append (nonempty : pattern ≠ []) (text : List Char) :
    replace pattern value (pattern ++ text) = value ++ replace pattern value text := by
  obtain ⟨c, rest, rfl⟩ := List.exists_cons_of_ne_nil nonempty
  have matched : c :: rest <+: c :: (rest ++ text) := List.prefix_append (c :: rest) text
  rw [replace, List.cons_append, replaceFrom_matched matched, List.length_cons, Nat.add_sub_cancel, replaceFrom_skip]
  rfl

/-- Text without the first character of the pattern is copied. -/
theorem replace_literal {c : Char} {rest literal : List Char} (plain : c ∉ literal) (text : List Char) :
    replace (c :: rest) value (literal ++ text) = literal ++ replace (c :: rest) value text := by
  induction literal with
  | nil => rfl
  | cons d literal ih =>
    obtain ⟨different, later⟩ := not_or.mp (mt List.mem_cons.mpr plain)
    have other : ¬ c :: rest <+: d :: (literal ++ text) := fun starts => different (List.cons_prefix_cons.mp starts).1
    rw [replace, List.cons_append, replaceFrom_other other]
    exact congrArg (d :: ·) (ih later)

theorem replace_of_not_infix {text : List Char} (absent : ¬ pattern <:+: text) : replace pattern value text = text := by
  induction text with
  | nil => rfl
  | cons c text ih =>
    obtain ⟨other, later⟩ := not_or.mp (mt List.infix_cons_iff.mpr absent)
    rw [replace, replaceFrom_other other]
    exact congrArg (c :: ·) (ih later)

section
variable {mark : List Char} (apart : ∀ c ∈ mark, c ∉ value)
include apart

/-- Behind text with which it shares no character nothing begins earlier. -/
theorem infix_of_infix_append (nonempty : mark ≠ []) {text : List Char} (found : mark <:+: value ++ text) :
    mark <:+: text := by
  obtain ⟨c, rest, rfl⟩ := List.exists_cons_of_ne_nil nonempty
  have foreign : c ∉ value := apart c List.mem_cons_self
  clear apart
  induction value with
  | nil => exact found
  | cons d value ih =>
    obtain ⟨different, later⟩ := not_or.mp (mt List.mem_cons.mpr foreign)
    rcases List.infix_cons_iff.mp found with starts | inside
    · exact absurd (List.cons_prefix_cons.mp starts).1 different
    · exact ih inside later

variable (written : value ≠ [])
include written

/-- What begins a text after the replacement has begun it before, as it cannot reach into a value. -/
theorem prefix_of_prefix_replace {text : List Char} (found : mark <+: replace pattern value text) : mark <+: text := by
  induction mark generalizing text with
  | nil => exact List.nil_prefix
  | cons c mark ih =>
    cases text with
    | nil => exact found
    | cons d text =>
      by_cases starts : pattern <+: d :: text
      · rw [replace, replaceFrom_matched starts] at found
        obtain ⟨e, digits, rfl⟩ := List.exists_cons_of_ne_nil written
        have same := (List.cons_prefix_cons.mp found).1
        exact absurd (same ▸ List.mem_cons_self) (apart c List.mem_cons_self)
      · rw [replace, replaceFrom_other starts] at found
        obtain ⟨rfl, later⟩ := List.cons_prefix_cons.mp found
        have rest := ih (fun a member => apart a (List.mem_cons_of_mem c member)) later
        exact List.cons_prefix_cons.mpr ⟨rfl, rest⟩

/-- What occurs in a text after the replacement has occurred before, at a place where the pattern does not. -/
theorem infix_replaceFrom (nonempty : mark ≠ []) {skip : Nat} {text : List Char}
    (found : mark <:+: replaceFrom pattern value skip text) :
    ∃ rest, rest <:+ text ∧ mark <+: rest ∧ ¬ pattern <+: rest := by
  have later : ∀ {c : Char} {text : List Char}, (∃ rest, rest <:+ text ∧ mark <+: rest ∧ ¬ pattern <+: rest) →
      ∃ rest, rest <:+ c :: text ∧ mark <+: rest ∧ ¬ pattern <+: rest := by
    rintro c text ⟨rest, ends, starts, other⟩
    exact ⟨rest, ends.trans (List.suffix_cons c text), starts, other⟩
  induction text generalizing skip with
  | nil =>
    have empty : replaceFrom pattern value skip [] = [] := by rw [replaceFrom]
    rw [empty] at found
    exact absurd (List.eq_nil_of_infix_nil found) nonempty
  | cons c text ih =>
    cases skip with
    | succ skip => exact later (ih found)
    | zero =>
      by_cases starts : pattern <+: c :: text
      · rw [replaceFrom_matched starts] at found
        exact later (ih (infix_of_infix_append apart nonempty found))
      · rw [replaceFrom_other starts] at found
        rcases List.infix_cons_iff.mp found with first | inside
        · rw [← replaceFrom_other starts] at first
          exact ⟨c :: text, List.suffix_refl _, prefix_of_prefix_replace apart written first, starts⟩
        · exact later (ih inside)

theorem infix_of_infix_replace (nonempty : mark ≠ []) {text : List Char}
    (found : mark <:+: replace pattern value text) : mark <:+: text := by
  obtain ⟨rest, ends, starts, _⟩ := infix_replaceFrom apart written nonempty found
  exact starts.isInfix.trans ends.isInfix

end

/-- A pattern that shares no character with its value is gone after the replacement. -/
theorem not_infix_replace (apart : ∀ c ∈ pattern, c ∉ value) (written : value ≠ []) (nonempty : pattern ≠ [])
    (text : List Char) : ¬ pattern <:+: replace pattern value text := by
  intro found
  obtain ⟨rest, _, starts, other⟩ := infix_replaceFrom apart written nonempty found
  exact other starts

end

/-! ### Placeholders -/

inductive Placeholder
  | ramStart
  | stackSize
deriving DecidableEq

namespace Placeholder

/-- What stands between the percent signs. -/
def name : Placeholder → List Char
  | .ramStart => "RAM_START".toList
  | .stackSize => "STACK_SIZE".toList

/-- The placeholder as it is written. -/
def mark : Placeholder → List Char
  | .ramStart => ramStartMark
  | .stackSize => stackSizeMark

/-- The number that it stands for, in decimal. -/
def value : Placeholder → List Char
  | .ramStart => (decimal Platform.imageStart).toList
  | .stackSize => (decimal Platform.bootStackSize).toList

theorem mark_eq (p : Placeholder) : p.mark = '%' :: (p.name ++ ['%']) := by
  cases p <;> rfl

theorem mark_append (p : Placeholder) (text : List Char) : p.mark ++ text = '%' :: (p.name ++ '%' :: text) := by
  rw [mark_eq, List.cons_append, List.append_assoc, List.singleton_append]

theorem plain_name (p : Placeholder) : '%' ∉ p.name := by
  cases p <;> decide

theorem notMem_value {c : Char} (other : c.isDigit = false) (p : Placeholder) : c ∉ p.value := by
  cases p <;> exact notMem_toString other _

theorem plain_value (p : Placeholder) : '%' ∉ p.value := notMem_value (by decide) p

theorem name_injective {p q : Placeholder} (same : p.name = q.name) : p = q := by
  cases p <;> cases q <;> first | rfl | exact absurd same (by decide)

theorem mark_ne_nil (p : Placeholder) : p.mark ≠ [] := by
  simp [mark_eq]

theorem value_ne_nil (p : Placeholder) : p.value ≠ [] := by
  cases p <;> decide

/-- There is no digit in a mark. -/
theorem mark_apart (p q : Placeholder) : ∀ c ∈ p.mark, c ∉ q.value := by
  have marks : p.mark.all (fun c => !c.isDigit) = true := by
    cases p <;> decide
  intro c member
  have other := List.all_eq_true.mp marks c member
  exact notMem_value (by simpa using other) q

end Placeholder

theorem render_eq (template : List Char) : render template =
    replace Placeholder.stackSize.mark Placeholder.stackSize.value
      (replace Placeholder.ramStart.mark Placeholder.ramStart.value template) := rfl

/-- A rendered script holds no placeholder any more. -/
theorem not_infix_render (p : Placeholder) (template : List Char) : ¬ p.mark <:+: render template := by
  have absent : ∀ (q : Placeholder) (text : List Char), ¬ q.mark <:+: replace q.mark q.value text := fun q text =>
    not_infix_replace (q.mark_apart q) q.value_ne_nil q.mark_ne_nil text
  rw [render_eq]
  cases p with
  | stackSize => exact absent .stackSize _
  | ramStart =>
    intro found
    have earlier := infix_of_infix_replace (Placeholder.mark_apart .ramStart .stackSize)
      Placeholder.stackSize.value_ne_nil Placeholder.ramStart.mark_ne_nil found
    exact absent .ramStart template earlier

theorem render_render (template : List Char) : render (render template) = render template := by
  rw [render_eq (render template), replace_of_not_infix (not_infix_render .ramStart template),
    replace_of_not_infix (not_infix_render .stackSize template)]

/-! ### Templates in pieces -/

/-- A piece of a template: a placeholder, or a stretch of text without a percent sign. -/
inductive Segment
  | placeholder (p : Placeholder)
  | literal (text : List Char) (plain : '%' ∉ text)

namespace Segment

/-- The piece as it stands in the template. -/
def text : Segment → List Char
  | .placeholder p => p.mark
  | .literal text _ => text

/-- The piece as it stands in the script. -/
def rendered : Segment → List Char
  | .placeholder p => p.value
  | .literal text _ => text

/-- The piece after `p` has been replaced. -/
def replaced (p : Placeholder) : Segment → Segment
  | .placeholder q => if q = p then .literal p.value p.plain_value else .placeholder q
  | .literal text plain => .literal text plain

end Segment

/-- The literal text up to the next placeholder, if there is one. -/
def stretch : List Segment → Option (List Char)
  | [] => none
  | .placeholder _ :: _ => some []
  | .literal text _ :: rest => (stretch rest).map (text ++ ·)

/-- No stretch between two placeholders is exactly the name of a placeholder. -/
def Separated : List Segment → Prop
  | [] => True
  | .placeholder _ :: rest => (∀ p : Placeholder, stretch rest ≠ some p.name) ∧ Separated rest
  | .literal _ _ :: rest => Separated rest

/-- Wherever another placeholder stands, no occurrence of `p` begins at its last character. -/
def Clear (p : Placeholder) : List Segment → Prop
  | [] => True
  | .placeholder q :: rest => (q = p ∨ stretch rest ≠ some p.name) ∧ Clear p rest
  | .literal _ _ :: rest => Clear p rest

theorem Separated.clear {segments : List Segment} (separated : Separated segments) (p : Placeholder) :
    Clear p segments := by
  induction segments with
  | nil => trivial
  | cons segment segments ih =>
    cases segment with
    | placeholder q => exact ⟨.inr (separated.1 p), ih separated.2⟩
    | literal text plain => exact ih separated

/-- A text that begins with a name and a percent sign begins with a stretch of that name before a placeholder. -/
theorem stretch_of_text {name rest : List Char} (plain : '%' ∉ name) {segments : List Segment}
    (begins : segments.flatMap Segment.text = name ++ '%' :: rest) : stretch segments = some name := by
  induction segments generalizing name with
  | nil => simp at begins
  | cons segment segments ih =>
    cases segment with
    | placeholder q =>
      cases name with
      | nil => rfl
      | cons c name =>
        rw [List.flatMap_cons, Segment.text, Placeholder.mark_append] at begins
        have same : '%' = c := (List.cons.inj begins).1
        exact absurd (same ▸ List.mem_cons_self) plain
    | literal text free =>
      rw [List.flatMap_cons, Segment.text] at begins
      rcases List.append_eq_append_iff.mp begins with ⟨more, rfl, later⟩ | ⟨more, rfl, later⟩
      · have next := ih (fun member => plain (List.mem_append_right text member)) later
        rw [stretch, next, Option.map_some]
      · cases more with
        | nil =>
          have next : stretch segments = some [] := ih List.not_mem_nil later.symm
          rw [stretch, next, Option.map_some, List.append_nil, List.append_nil]
        | cons c more =>
          have same : '%' = c := (List.cons.inj later).1
          exact absurd (List.mem_append_right name (same ▸ List.mem_cons_self)) free

/-- A percent sign that `p` does not begin with is copied. -/
theorem replace_percent {p : Placeholder} {text : List Char} (other : ¬ ∃ rest, text = p.name ++ '%' :: rest) :
    replace p.mark p.value ('%' :: text) = '%' :: replace p.mark p.value text := by
  refine replaceFrom_other fun starts => other ?_
  obtain ⟨rest, whole⟩ := starts
  rw [Placeholder.mark_append] at whole
  exact ⟨rest, (List.cons.inj whole).2.symm⟩

/-- A placeholder is replaced where it stands as a piece and nowhere else. -/
theorem replace_segments (p : Placeholder) {segments : List Segment} (clear : Clear p segments) :
    replace p.mark p.value (segments.flatMap Segment.text) =
      (segments.map (Segment.replaced p)).flatMap Segment.text := by
  have copies : ∀ {literal : List Char}, '%' ∉ literal → ∀ text,
      replace p.mark p.value (literal ++ text) = literal ++ replace p.mark p.value text := by
    intro literal plain text
    rw [Placeholder.mark_eq]
    exact replace_literal plain text
  induction segments with
  | nil => rfl
  | cons segment segments ih =>
    rw [List.flatMap_cons, List.map_cons, List.flatMap_cons]
    cases segment with
    | literal text plain => rw [Segment.text, copies plain, ih clear]; rfl
    | placeholder q =>
      obtain ⟨here, later⟩ := clear
      by_cases same : q = p
      · rw [same, Segment.text, replace_append p.mark_ne_nil, ih later, Segment.replaced, if_pos rfl]
        rfl
      · have name : ¬ ∃ rest, q.name ++ '%' :: segments.flatMap Segment.text = p.name ++ '%' :: rest := by
          rintro ⟨rest, whole⟩
          exact same (Placeholder.name_injective (append_cons_inj_first q.plain_name p.plain_name whole).1)
        have behind : ¬ ∃ rest, segments.flatMap Segment.text = p.name ++ '%' :: rest := by
          rintro ⟨rest, whole⟩
          exact absurd (stretch_of_text p.plain_name whole) (here.resolve_left same)
        rw [Segment.replaced, if_neg same, Segment.text, ← ih later, Placeholder.mark_append, Placeholder.mark_append,
          replace_percent name, copies q.plain_name, replace_percent behind]

/-- Once the start of memory is filled in, the size of the stack is the only placeholder left. -/
theorem replaced_clear (segments : List Segment) : Clear .stackSize (segments.map (Segment.replaced .ramStart)) := by
  induction segments with
  | nil => trivial
  | cons segment segments ih =>
    cases segment with
    | literal text plain => exact ih
    | placeholder q =>
      cases q with
      | ramStart => exact ih
      | stackSize => exact ⟨.inl rfl, ih⟩

theorem text_replaced (segment : Segment) :
    ((segment.replaced .ramStart).replaced .stackSize).text = segment.rendered := by
  cases segment with
  | literal text plain => rfl
  | placeholder q => cases q <;> rfl

theorem render_segments {segments : List Segment} (separated : Separated segments) :
    render (segments.flatMap Segment.text) = segments.flatMap Segment.rendered := by
  rw [render_eq, replace_segments .ramStart (separated.clear .ramStart), replace_segments .stackSize (replaced_clear _),
    List.map_map, List.flatMap_map]
  exact congrArg segments.flatMap (funext text_replaced)

/-- Between two placeholders a stretch that is such a name is taken for a placeholder, with the percent signs of its
    neighbours. -/
example : render "%STACK_SIZE%RAM_START%STACK_SIZE%".toList = "%STACK_SIZE2147483648STACK_SIZE%".toList := by decide

/-- A build for the board's architecture in which everything is found. -/
def complete (manifestDir outDir template : String) : Environment :=
  ⟨some manifestDir, some outDir, some architecture, some template, true⟩

/-- From every template the build writes a script that holds no placeholder, and that a further build would leave as it
    is. Where the template is a sequence of placeholders and stretches without a percent sign, and no stretch between
    two placeholders is the name of one, the script is that sequence with each placeholder replaced by its number and
    every stretch as it was. -/
theorem script_rendered (manifestDir outDir template : String) :
    ∃ script : String,
      build (complete manifestDir outDir template) = ⟨[rerunLine, linkLine outDir], some script, none⟩ ∧
      ¬ ramStartMark <:+: script.toList ∧ ¬ stackSizeMark <:+: script.toList ∧
      (build (complete manifestDir outDir script)).script = some script ∧
      ∀ segments : List Segment, template.toList = segments.flatMap Segment.text → Separated segments →
        script.toList = segments.flatMap Segment.rendered := by
  have again : render (String.ofList (render template.toList)).toList = render template.toList := by
    rw [String.toList_ofList, render_render]
  refine ⟨String.ofList (render template.toList), rfl, ?_, ?_, ?_, ?_⟩
  · rw [String.toList_ofList]
    exact not_infix_render .ramStart template.toList
  · rw [String.toList_ofList]
    exact not_infix_render .stackSize template.toList
  · exact congrArg (fun text => some (String.ofList text)) again
  · intro segments whole separated
    rw [String.toList_ofList, whole, render_segments separated]

/-- A template whose stretches hold names of placeholders, at its end and after a percent sign that closes one. -/
def crowded : List Segment :=
  [.placeholder .stackSize, .literal "RAM_START = ".toList (by decide), .placeholder .ramStart,
    .placeholder .stackSize, .literal "RAM_START".toList (by decide)]

theorem script_rendered_crowded :
    "%STACK_SIZE%RAM_START = %RAM_START%%STACK_SIZE%RAM_START".toList = crowded.flatMap Segment.text ∧
      Separated crowded ∧
      (build (complete "kernel" "out" "%STACK_SIZE%RAM_START = %RAM_START%%STACK_SIZE%RAM_START")).script =
        some "65536RAM_START = 214748364865536RAM_START" := by
  have whole : "%STACK_SIZE%RAM_START = %RAM_START%%STACK_SIZE%RAM_START".toList = crowded.flatMap Segment.text := by
    decide
  have separated : Separated crowded := by
    refine ⟨fun p => ?_, fun p => ?_, fun p => ?_, trivial⟩ <;> cases p <;> decide
  obtain ⟨script, built, _, _, _, pieces⟩ :=
    script_rendered "kernel" "out" "%STACK_SIZE%RAM_START = %RAM_START%%STACK_SIZE%RAM_START"
  have text : script = "65536RAM_START = 214748364865536RAM_START" := by
    rw [← String.toList_inj, pieces crowded whole separated]
    decide
  exact ⟨whole, separated, by rw [built, text]⟩

end HartBoot.LinkScript
