import DesiredState.Proofs.Json.Difference
import DesiredState.Proofs.Json.Overlay
import Mathlib.Algebra.BigOperators.Group.Finset.Piecewise

/-!
# The balance of two documents

The difference of two objects is a sum over the names in either of them (`difference_obj`), and
each name weighs the same in both directions once additions and removals trade places. So a
difference is its reverse, reversed (`difference_eq_reversed`). A document that is laid over another
removes nothing from it, unless it makes a list shorter (`removed_overlayUnder`).
-/

namespace DesiredState

/-! ## Sums of differences -/

namespace Difference

/-- The difference in the other direction: what is new in one is gone in the other. -/
def reversed (d : Difference) : Difference := ⟨d.removed, d.updated, d.added⟩

theorem add_def (a b : Difference) :
    a + b = ⟨a.added + b.added, a.updated + b.updated, a.removed + b.removed⟩ := rfl

instance : Zero Difference := ⟨zero⟩

instance : AddCommMonoid Difference where
  add_assoc a b c := by simp only [add_def, Nat.add_assoc]
  zero_add a := by
    show (⟨0 + a.added, 0 + a.updated, 0 + a.removed⟩ : Difference) = a
    simp only [Nat.zero_add]
  add_zero a := rfl
  add_comm a b := by simp only [add_def, Nat.add_comm]
  nsmul := nsmulRec

theorem reversed_sum {ι : Type} (s : Finset ι) (f : ι → Difference) :
    (∑ i ∈ s, f i).reversed = ∑ i ∈ s, (f i).reversed :=
  map_sum (⟨⟨reversed, rfl⟩, fun _ _ => rfl⟩ : Difference →+ Difference) f s

theorem removed_sum {ι : Type} {s : Finset ι} {f : ι → Difference}
    (h : ∀ i ∈ s, (f i).removed = 0) : (∑ i ∈ s, f i).removed = 0 :=
  Finset.sum_induction f (·.removed = 0)
    (fun a b ha hb => by simp only [add_def, ha, hb]) rfl h

end Difference

/-- A sum over the entries of a chain is one over any set that holds its keys. -/
theorem Entries.sum_entries {κ α M : Type} [LT κ] [DecidableEq κ] [KeyOrder κ] [AddCommMonoid M]
    {b : Option κ} (m : Entries κ α b) (f : κ → α → M) {s : Finset κ}
    (all : ∀ k v, m.get? k = some v → k ∈ s) :
    (m.toList.map fun e => f e.1 e.2).sum = ∑ k ∈ s, ((m.get? k).map (f k)).getD 0 := by
  induction m with
  | nil => simp [toList]
  | cons j hj v rest ih =>
    obtain ⟨here, later⟩ := forall_get?_cons.1 all
    -- The first key is in no other entry, so its term stands alone.
    have split : ∀ k, (((cons j hj v rest).get? k).map (f k)).getD 0 =
        (if k = j then f j v else 0) + ((rest.get? k).map (f k)).getD 0 := by
      intro k
      by_cases e : k = j
      · subst e
        simp [get?_cons, rest.get?_eq_none (not_after_self k)]
      · simp [get?_cons, e]
    simp only [split, Finset.sum_add_distrib, Finset.sum_ite_eq', if_pos here, toList,
      List.map_cons, List.sum_cons, ih later]

namespace Json

/-! ## Objects -/

/-- What a name adds to the difference of two objects. -/
def balance : Option Json → Option Json → Difference
  | some v, other => memberDifference v other
  | none, some _ => ⟨0, 0, 1⟩
  | none, none => 0

/-- The names in either of two objects. -/
def names (m n : Object) : Finset String := (m.keys ++ n.keys).toFinset

theorem names_comm (m n : Object) : names m n = names n m := by
  ext k
  simp only [names, List.mem_toFinset, List.mem_append, or_comm]

theorem mem_names {m : Object} {k : String} {v : Json} (there : m.get? k = some v) (n : Object) :
    k ∈ names m n := by
  rw [names, List.mem_toFinset, List.mem_append]
  exact .inl (List.mem_map.2 ⟨_, Entries.mem_toList_of_get? there, rfl⟩)

theorem differenceFields_eq_sum (others : Object) {b : Option String}
    (fields : Entries String Json b) :
    differenceFields others fields =
      (fields.toList.map fun e => memberDifference e.2 (others.get? e.1)).sum := by
  induction fields with
  | nil => rfl
  | cons j hj v rest ih =>
    simp only [differenceFields_cons, ih, Entries.toList, List.map_cons, List.sum_cons]

theorem missingFrom_eq_sum (others : Object) {b : Option String} (fields : Entries String Json b) :
    (⟨0, 0, Difference.missingFrom others fields⟩ : Difference) =
      (fields.toList.map fun e => if others.contains e.1 then 0 else ⟨0, 0, 1⟩).sum := by
  induction fields with
  | nil => rfl
  | cons j hj v rest ih =>
    simp only [Difference.missingFrom, Entries.toList, List.map_cons, List.sum_cons, ← ih]
    split <;> simp [Difference.add_def]

/-- The difference of two objects, name by name. -/
theorem difference_obj (m n : Object) :
    (obj m).difference (obj n) = ∑ k ∈ names m n, balance (m.get? k) (n.get? k) := by
  -- One sum runs over the names of the first object and one over those of the second, so that both
  -- are taken over the names of either before they are joined.
  rw [difference, differenceFields_eq_sum, missingFrom_eq_sum,
    m.sum_entries (fun k v => memberDifference v (n.get? k)) fun k v h => mem_names h n,
    n.sum_entries (fun k _ => (if m.contains k then 0 else ⟨0, 0, 1⟩ : Difference))
      fun k v h => names_comm m n ▸ mem_names h m,
    ← Finset.sum_add_distrib]
  refine Finset.sum_congr rfl fun k _ => ?_
  unfold Entries.contains balance
  cases m.get? k <;> cases n.get? k <;> simp

/-! ## The other direction -/

/-- Unless both are lists or both are objects, two documents differ as a whole or not at all. -/
theorem difference_apart {a b : Json} (lists : a.asArray? = none ∨ b.asArray? = none)
    (objects : a.asObject? = none ∨ b.asObject? = none) :
    a.difference b = if a.same b then 0 else ⟨0, 1, 0⟩ := by
  cases a <;> cases b <;> first | rfl | simp [asArray?, asObject?] at lists objects

theorem differingItems_comm (xs ys : List Json) :
    Difference.differingItems xs ys = Difference.differingItems ys xs := by
  unfold Difference.differingItems
  induction xs generalizing ys with
  | nil => simp
  | cons x xs ih =>
    cases ys with
    | nil => rfl
    | cons y ys =>
      simp only [List.zip_cons_cons, List.filter_cons, same_comm x y]
      split <;> simp [ih]

theorem balance_reversed (l w : Option Json)
    (ih : ∀ v u, l = some v → v.difference u = (u.difference v).reversed) :
    balance l w = (balance w l).reversed := by
  cases l with
  | none => cases w <;> rfl
  | some v =>
    cases w with
    | none => rfl
    | some u =>
      simp only [balance, memberDifference, same_comm u v, ih v u rfl]
      split <;> rfl

/-- The difference of two documents is that in the other direction, reversed. -/
theorem difference_eq_reversed (a b : Json) : a.difference b = (b.difference a).reversed := by
  induction a using induction_members generalizing b with
  | leaf a harr hobj =>
    rw [difference_apart (.inl harr) (.inl hobj), difference_apart (.inr harr) (.inr hobj),
      same_comm b a]
    split <;> rfl
  | arr items _ =>
    cases b with
    | arr others =>
      simp only [difference, Difference.reversed, differingItems_comm others items]
    | _ => rfl
  | obj fields ih =>
    cases b with
    | obj others =>
      rw [difference_obj, difference_obj, Difference.reversed_sum, names_comm others fields]
      exact Finset.sum_congr rfl fun k _ => balance_reversed _ _ fun v u there => ih k v there u
    | _ => rfl

/-! ## Documents laid over others -/

/-- No list of the wanted document is shorter than the live one that the same members lead to. -/
def KeepsLengths (live wanted : Json) : Prop :=
  ∀ path items others, live.path? path = some (arr items) → wanted.path? path = some (arr others) →
    items.length ≤ others.length

theorem KeepsLengths.member {live wanted : Json} (h : KeepsLengths live wanted) {k : String}
    {l w : Json} (hl : live.member? k = some l) (hw : wanted.member? k = some w) :
    KeepsLengths l w := by
  intro path items others there there'
  refine h (k :: path) items others ?_ ?_
  · rw [path?_cons, hl]
    exact there
  · rw [path?_cons, hw]
    exact there'

theorem length_overlayItems (name : Option String) (ls ws : List Json) :
    (overlayItems name ls ws).length = ws.length := by
  induction ws generalizing ls with
  | nil => cases ls <;> rfl
  | cons w ws ih => cases ls <;> simp [ih]

/-- A member that another is laid over loses nothing. -/
theorem removed_laid (quantities : Bool) (k : String) (l w : Option Json)
    (ih : ∀ u v, l = some u → w = some v →
      ((overlayUnder (some k) u v).difference u).removed = 0) :
    (balance (laid quantities k l w) l).removed = 0 := by
  cases l with
  | none => cases w <;> rfl
  | some u =>
    have unchanged : (memberDifference u (some u)).removed = 0 := by
      simp [memberDifference, same_self, Difference.zero]
    cases w with
    | none => exact unchanged
    | some v =>
      simp only [laid, joined, balance]
      split
      · exact unchanged
      · rw [memberDifference]
        split
        · rfl
        · exact ih u v rfl rfl

/-- A document that takes the place of another as a whole updates it. -/
theorem removed_apart {name : Option String} {l w : Json}
    (lists : w.asArray? = none ∨ l.asArray? = none)
    (objects : w.asObject? = none ∨ l.asObject? = none) :
    ((overlayUnder name l w).difference l).removed = 0 := by
  have taken : overlayUnder name l w = w := by
    cases w <;> cases l <;> first | rfl | simp_all [asArray?, asObject?]
  rw [taken, difference_apart lists objects]
  split <;> rfl

/-- Nothing is removed from a document when no list of it becomes shorter. -/
theorem removed_overlayUnder {name : Option String} {live wanted : Json}
    (kept : KeepsLengths live wanted) :
    ((overlayUnder name live wanted).difference live).removed = 0 := by
  induction wanted using induction_members generalizing name live with
  | leaf wanted harr hobj => exact removed_apart (.inl harr) (.inl hobj)
  | arr ws _ =>
    cases live with
    | arr ls =>
      have longer : ls.length ≤ ws.length := kept [] ls ws rfl rfl
      rw [overlayUnder_arr, difference]
      show ls.length - (overlayItems name ls ws).length = 0
      rw [length_overlayItems]
      omega
    | _ => exact removed_apart (.inr rfl) (.inl rfl)
  | obj wanted ih =>
    cases live with
    | obj fields =>
      rw [overlayUnder_obj, difference_obj]
      refine Difference.removed_sum fun k _ => ?_
      rw [get?_overlayFields]
      refine removed_laid _ k _ _ fun u v there there' => ?_
      exact ih k v there' (kept.member (k := k) there there')
    | _ => exact removed_apart (.inl rfl) (.inr rfl)

/-- Differences are exact. They end in nothing exactly for equal values, among which an integer and
a floating number never are; what one direction adds the other removes, and both update the same.
Laying a document over another removes nothing if it makes no list shorter. -/
theorem difference_exact :
    (∀ a b : Json, ((a.difference b).isEmpty = true ↔ a.same b = true) ∧
      (a.difference b).added = (b.difference a).removed ∧
      (a.difference b).updated = (b.difference a).updated) ∧
    (∀ n x, ((num (.int n)).difference (num (.float x))).isEmpty = false) ∧
    ∀ live wanted : Json, KeepsLengths live wanted →
      ((live.overlay wanted).difference live).removed = 0 := by
  refine ⟨fun a b => ⟨?_, ?_, ?_⟩, fun n x => ?_, fun live wanted kept => removed_overlayUnder kept⟩
  · rw [isEmpty_difference]
  · rw [difference_eq_reversed a b]
    rfl
  · rw [difference_eq_reversed a b]
    rfl
  · rw [isEmpty_difference, same, Number.int_same_float]

/-! ### An instance -/

section Instance

/-- A container with these arguments and these other members. -/
def commandOf (args : List Json) (members : List (String × Json)) : Json :=
  .object (("args", .arr args) :: members)

def liveCommand : Json := commandOf [.str "run", .null] [("tty", .bool true)]

def wantedCommand : Json :=
  commandOf [.str "run", .str "fast", .str "now"] [("image", .str "app:1")]

/-- One argument is put in place of another, one is added, and so is the image. -/
theorem difference_command :
    KeepsLengths liveCommand wantedCommand ∧
      ((liveCommand.overlay wantedCommand).difference liveCommand).removed = 0 ∧
      (liveCommand.difference (liveCommand.overlay wantedCommand)).added = 0 ∧
      (liveCommand.overlay wantedCommand).difference liveCommand = ⟨2, 1, 0⟩ := by
  have kept : KeepsLengths liveCommand wantedCommand := by
    intro path items others there there'
    cases path with
    | nil => cases there
    | cons k rest =>
      rw [path?_cons, Option.bind_eq_some_iff] at there there'
      obtain ⟨l, hl, there⟩ := there
      obtain ⟨w, hw, there'⟩ := there'
      by_cases args : k = "args"
      · subst args
        cases hl
        cases hw
        cases rest with
        | nil =>
          cases there
          cases there'
          decide
        | cons => cases there
      · -- The only other name that is live is not wanted.
        obtain ⟨rfl, -⟩ : k = "tty" ∧ bool true = l := by
          simpa [liveCommand, commandOf, object, SortedMap.ofList, args] using hl
        cases hw
  obtain ⟨exact, -, nothing⟩ := difference_exact
  have removed := nothing liveCommand wantedCommand kept
  refine ⟨kept, removed, ?_, by decide +kernel⟩
  rw [(exact liveCommand (liveCommand.overlay wantedCommand)).2.1, removed]

end Instance

end Json

end DesiredState
