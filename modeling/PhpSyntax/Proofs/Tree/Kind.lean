import Mathlib.Data.List.Nodup
import PhpSyntax.Tree.Kind

namespace PhpSyntax.Kind

theorem mem_all (k : Kind) : k ∈ all :=
  List.mem_of_getElem? (i := k.ctorIdx) (by cases k <;> rfl)

def letters (k : Kind) : { cs : List Char // k.name = String.ofList cs } := by
  cases k <;> exact ⟨_, rfl⟩

theorem name_toList (k : Kind) : k.name.toList = k.letters.1 :=
  (congrArg String.toList k.letters.2).trans String.toList_ofList

/-- A name consists of letters. -/
theorem isAlpha_of_mem_name {k : Kind} {c : Char} (h : c ∈ k.name.toList) : c.isAlpha := by
  have hall : k.letters.1.all Char.isAlpha := by cases k <;> rfl
  rw [name_toList] at h
  exact List.all_eq_true.mp hall c h

/-- A name starts with a letter. -/
theorem name_eq_cons (k : Kind) : ∃ c cs, k.name.toList = c :: cs ∧ c.isAlpha := by
  rw [name_toList]
  cases k <;> exact ⟨_, _, rfl, rfl⟩

theorem nodup_letters : (all.map fun k => k.letters.1).Nodup := by decide +kernel

/-- Different kinds have different names. -/
theorem name_injective : Function.Injective name := by
  intro j k h
  have h : j.letters.1 = k.letters.1 := by rw [← name_toList, h, name_toList]
  exact List.inj_on_of_nodup_map nodup_letters (mem_all j) (mem_all k) h

end PhpSyntax.Kind
