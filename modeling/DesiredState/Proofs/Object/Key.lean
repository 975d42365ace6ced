import DesiredState.Object.Key
import Mathlib.Data.List.Basic

/-!
# Texts of keys

Keys of one kind are told apart by their texts (`text_inj`), as long as no slash is in a namespace
or in a name: a text has one more slash if there is a namespace, and the last slash is that before
the name.
-/

namespace DesiredState.ObjectKey

/-- No slash is in the name, or in the namespace if there is one. -/
structure SlashFree (key : ObjectKey) : Prop where
  name : '/' ∉ key.name.toList
  ns : ∀ ns, key.ns? = some ns → '/' ∉ ns.toList

variable {a b : ObjectKey}

/-- The text of a key without its kind. -/
def place (key : ObjectKey) : List Char :=
  match key.ns? with
  | some ns => ns.toList ++ '/' :: key.name.toList
  | none => key.name.toList

theorem toList_text (key : ObjectKey) :
    key.text.toList = key.gvk.text.toList ++ '/' :: key.place := by
  unfold text place
  cases key.ns? <;> simp [String.toList_append]

theorem place_inj (ha : a.SlashFree) (hb : b.SlashFree) (eq : a.place = b.place) :
    a.ns? = b.ns? ∧ a.name = b.name := by
  unfold place at eq
  cases nsa : a.ns? with
  | none =>
    cases nsb : b.ns? with
    | none =>
      rw [nsa, nsb] at eq
      exact ⟨rfl, String.toList_inj.1 eq⟩
    | some ns =>
      simp only [nsa, nsb] at eq
      have slash : '/' ∈ a.name.toList := by simp [eq]
      exact absurd slash ha.name
  | some ns =>
    cases nsb : b.ns? with
    | none =>
      simp only [nsa, nsb] at eq
      have slash : '/' ∈ b.name.toList := by simp [← eq]
      exact absurd slash hb.name
    | some other =>
      rw [nsa, nsb] at eq
      obtain ⟨placed, -, named⟩ := (List.append_cons_inj_of_notMem (ha.ns ns nsa) ha.name).1 eq
      exact ⟨congrArg some (String.toList_inj.1 placed), String.toList_inj.1 named⟩

/-- Keys of one kind without slashes are equal if their texts are. -/
theorem text_inj (kind : a.gvk = b.gvk) (ha : a.SlashFree) (hb : b.SlashFree) :
    a.text = b.text ↔ a = b := by
  constructor
  · intro eq
    have texts := congrArg String.toList eq
    rw [toList_text, toList_text, kind, List.append_cancel_left_eq, List.cons_inj_right] at texts
    obtain ⟨placed, named⟩ := place_inj ha hb texts
    injection kind with group version kind
    cases a
    cases b
    simp_all
  · exact congrArg text

end DesiredState.ObjectKey
