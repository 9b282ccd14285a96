import Mathlib.Data.List.Nodup
import HartBoot.Register.Status
import HartBoot.Trap.Cause

/-!
Tables of codes. A type whose values have different numbers is decoded by looking a number up in the list of its values,
and the look-up finds the value that has the number, or none if no value has (`IsTable.find?_eq_some_iff`,
`IsTable.find?_eq_none_iff`). Privilege levels, interrupts and exceptions are decoded so.
-/
namespace HartBoot

/-- Every value is listed, and no two of them have the same code. -/
structure IsTable {α : Type} (all : List α) (code : α → Nat) : Prop where
  complete : ∀ a, a ∈ all
  distinct : (all.map code).Nodup

namespace IsTable
variable {α : Type} {all : List α} {code : α → Nat} (table : IsTable all code) {n : Nat}
include table

theorem find?_eq_none_iff : all.find? (fun a => code a == n) = none ↔ ∀ a, code a ≠ n := by
  rw [List.find?_eq_none]
  constructor
  · intro absent a
    simpa using absent a (table.complete a)
  · intro absent a _
    simpa using absent a

theorem find?_eq_some_iff {a : α} : all.find? (fun a => code a == n) = some a ↔ code a = n := by
  constructor
  · intro found
    simpa using List.find?_some found
  · intro same
    cases found : all.find? (fun a => code a == n) with
    | none => exact absurd same (table.find?_eq_none_iff.mp found a)
    | some b =>
      have again : code b = n := by simpa using List.find?_some found
      have equal : b = a :=
        List.inj_on_of_nodup_map table.distinct (table.complete b) (table.complete a) (again.trans same.symm)
      rw [equal]

omit n in
/-- Values whose listed names are all different are told apart by their names. -/
theorem name_injective {β : Type} {name : α → β} (distinct : (all.map name).Nodup) {a b : α} (same : name a = name b) :
    a = b :=
  List.inj_on_of_nodup_map distinct (table.complete a) (table.complete b) same

end IsTable

theorem PrivilegeMode.isTable : IsTable all code := ⟨fun mode => by cases mode <;> decide, by decide⟩

theorem Trap.Interrupt.isTable : IsTable all code := ⟨fun source => by cases source <;> decide, by decide⟩

theorem Trap.Exception.isTable : IsTable all code := ⟨fun kind => by cases kind <;> decide, by decide⟩

end HartBoot
