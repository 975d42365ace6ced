import DesiredState.Backoff
import DesiredState.Proofs.Object.Key
import Mathlib.Data.List.TakeWhile

/-!
# What texts tell apart

An `apiVersion` is read by a split at its first slash, and written without the slash of the core
group. So it is written as it was read unless it begins with a slash
(`apiVersion_ofApiVersion_eq_iff`), and a kind is read back from its `apiVersion` just if it is
legible (`ofApiVersion_apiVersion_eq_iff`). The texts of keys of one kind are told apart, so a table
of failures that is used under them counts for each key alone (`texts_faithful`).
-/

namespace DesiredState

/-! ## Kinds -/

namespace GroupVersionKind

/-- The first slash of the `apiVersion`, if there is one, is that after the group. -/
structure Legible (g : GroupVersionKind) : Prop where
  group : '/' ∉ g.group.toList
  version : g.group = "" → '/' ∉ g.version.toList

variable {s group version kind : String} {g : GroupVersionKind}

theorem toList_join (group version : String) :
    (group ++ "/" ++ version).toList = group.toList ++ '/' :: version.toList := by
  simp [String.toList_append]

theorem forall_ne_slash_iff : (∀ c ∈ s.toList, decide (c ≠ '/') = true) ↔ '/' ∉ s.toList := by
  simp only [ne_eq, decide_eq_true_eq]
  exact ⟨fun h mem => h _ mem rfl, fun h c mem e => h (e ▸ mem)⟩

/-- A text has no slash, or it consists of what is before its first one and after it. -/
theorem slash_cases (s : String) :
    '/' ∉ s.toList ∨ ∃ group version, '/' ∉ group.toList ∧ s = group ++ "/" ++ version := by
  by_cases slash : '/' ∈ s.toList
  · obtain ⟨front, rest, eq, first⟩ := List.eq_append_cons_of_mem slash
    refine .inr ⟨String.ofList front, String.ofList rest, ?_, String.toList_inj.1 ?_⟩
    · rwa [String.toList_ofList]
    · rw [toList_join, String.toList_ofList, String.toList_ofList, eq]
  · exact .inl slash

theorem ofApiVersion_of_notMem (h : '/' ∉ s.toList) (kind : String) :
    ofApiVersion s kind = ⟨"", s, kind⟩ := by
  rw [ofApiVersion, splitAtSlash, List.dropWhile_eq_nil_iff.2 (forall_ne_slash_iff.2 h)]

/-- The group ends at the first slash, whatever the version is. -/
theorem ofApiVersion_join (h : '/' ∉ group.toList) (version kind : String) :
    ofApiVersion (group ++ "/" ++ version) kind = ⟨group, version, kind⟩ := by
  have inside := forall_ne_slash_iff.2 h
  rw [ofApiVersion, splitAtSlash, toList_join, List.dropWhile_append_of_pos inside,
    List.takeWhile_append_of_pos inside]
  simp

theorem apiVersion_core (version kind : String) : apiVersion ⟨"", version, kind⟩ = version := rfl

theorem apiVersion_of_ne (h : g.group ≠ "") : g.apiVersion = g.group ++ "/" ++ g.version := by
  rw [apiVersion, if_neg (by simpa using h)]

/-- Nothing before the first slash is read as the core group, so a slash at the beginning is not
written again. All else is. -/
theorem apiVersion_ofApiVersion (s kind : String) :
    (ofApiVersion s kind).apiVersion.toList =
      if s.toList.head? = some '/' then s.toList.tail else s.toList := by
  rcases slash_cases s with plain | ⟨group, version, plain, rfl⟩
  · rw [ofApiVersion_of_notMem plain, apiVersion_core,
      if_neg fun h => plain (List.mem_of_head? h)]
  · rw [ofApiVersion_join plain]
    by_cases core : group = ""
    · subst core
      simp [apiVersion_core]
    · have other : (group ++ "/" ++ version).toList.head? ≠ some '/' := by
        have ne : group.toList ≠ [] := by simpa using core
        rw [toList_join, List.head?_append_of_ne_nil _ ne]
        exact fun h => plain (List.mem_of_head? h)
      rw [apiVersion_of_ne core, if_neg other]

/-- What was read is written as it was, unless it begins with a slash. -/
theorem apiVersion_ofApiVersion_eq_iff :
    (ofApiVersion s kind).apiVersion = s ↔ s.toList.head? ≠ some '/' := by
  rw [← String.toList_inj, apiVersion_ofApiVersion]
  split
  · rename_i slash
    refine iff_of_false (fun eq => ?_) (fun h => h slash)
    obtain ⟨rest, whole⟩ := List.head?_eq_some_iff.1 slash
    rw [whole] at eq
    exact List.cons_ne_self _ _ eq.symm
  · rename_i plain
    exact iff_of_true rfl plain

theorem notMem_group_ofApiVersion (s kind : String) : '/' ∉ (ofApiVersion s kind).group.toList := by
  rcases slash_cases s with plain | ⟨group, version, plain, rfl⟩
  · rw [ofApiVersion_of_notMem plain]
    simp
  · rwa [ofApiVersion_join plain]

/-- Only a text without a slash is a version of the core group as a whole. -/
theorem ofApiVersion_eq_core_iff : ofApiVersion s kind = ⟨"", s, kind⟩ ↔ '/' ∉ s.toList := by
  refine ⟨fun read => ?_, fun plain => ofApiVersion_of_notMem plain kind⟩
  rcases slash_cases s with plain | ⟨group, version, plain, rfl⟩
  · exact plain
  · -- Otherwise what is read as the version is shorter than the text.
    rw [ofApiVersion_join plain] at read
    have shorter := congrArg (fun g => g.version.toList.length) read
    simp only [toList_join, List.length_append, List.length_cons] at shorter
    omega

/-- A kind is read back from its `apiVersion` just if it is legible. -/
theorem ofApiVersion_apiVersion_eq_iff : ofApiVersion g.apiVersion g.kind = g ↔ g.Legible := by
  obtain ⟨group, version, kind⟩ := g
  by_cases core : group = ""
  · subst core
    rw [apiVersion_core, ofApiVersion_eq_core_iff]
    exact ⟨fun plain => ⟨by simp, fun _ => plain⟩, fun legible => legible.version rfl⟩
  · rw [apiVersion_of_ne core]
    refine ⟨fun read => ⟨?_, fun h => absurd h core⟩,
      fun legible => ofApiVersion_join legible.group version kind⟩
    have plain := notMem_group_ofApiVersion (group ++ "/" ++ version) kind
    rwa [read] at plain

end GroupVersionKind

/-! ## Keys -/

namespace ObjectKey

variable {a b : ObjectKey}

section Counts

variable (kind : a.gvk = b.gvk) (ha : a.SlashFree) (hb : b.SlashFree) (t : Backoff)

include kind ha hb

/-- A failure that is counted under the text of a key is one of no other key. -/
theorem failures_next_text :
    (t.next a.text).2.failures b.text =
      if b = a then min (t.failures a.text + 1) Backoff.largestCount else t.failures b.text := by
  show (t.fail a.text).failures b.text = _
  simp only [Backoff.failures_fail, text_inj kind.symm hb ha]

/-- The failures that are forgotten under the text of a key are those of no other key. -/
theorem failures_reset_text :
    (t.reset a.text).failures b.text = if b = a then 0 else t.failures b.text := by
  simp only [Backoff.failures_reset, text_inj kind.symm hb ha]

end Counts

/-- Texts are faithful to what they are written of. What is read from an `apiVersion` is written as
it was unless this begins with a slash; a kind is read back from its `apiVersion` just if its group
has no slash, nor its version in the core group; and keys of one kind without slashes in namespaces
and names have one text only if they are one key, so that a table of failures counts, and forgets,
for each of them alone. -/
theorem texts_faithful :
    (∀ s kind : String,
      (GroupVersionKind.ofApiVersion s kind).apiVersion = s ↔ s.toList.head? ≠ some '/') ∧
    (∀ g : GroupVersionKind,
      GroupVersionKind.ofApiVersion g.apiVersion g.kind = g ↔ g.Legible) ∧
    ∀ a b : ObjectKey, a.gvk = b.gvk → a.SlashFree → b.SlashFree →
      (a.text = b.text ↔ a = b) ∧
      ∀ t : Backoff,
        (t.next a.text).2.failures b.text =
          (if b = a then min (t.failures a.text + 1) Backoff.largestCount
            else t.failures b.text) ∧
        (t.reset a.text).failures b.text = if b = a then 0 else t.failures b.text := by
  refine ⟨fun s kind => ?_, fun g => ?_, fun a b kind ha hb => ⟨?_, fun t => ⟨?_, ?_⟩⟩⟩
  · exact GroupVersionKind.apiVersion_ofApiVersion_eq_iff
  · exact GroupVersionKind.ofApiVersion_apiVersion_eq_iff
  · exact text_inj kind ha hb
  · exact failures_next_text kind ha hb t
  · exact failures_reset_text kind ha hb t

/-- A slash can belong to the namespace or to the name, so keys with such parts can share a text. -/
example : text ⟨"", "v1", "ConfigMap", some "team/web", "settings"⟩ =
    text ⟨"", "v1", "ConfigMap", some "team", "web/settings"⟩ := rfl

/-! ### An instance -/

section Instance

/-- A deployment of a version that has a slash, in no namespace. -/
def nowhere : ObjectKey := ⟨"apps", "v1/beta", "Deployment", none, "web"⟩

/-- The deployment in a namespace without a name. -/
def unnamed : ObjectKey := { nowhere with ns? := some "" }

/-- Their kind is read back, and their texts are told apart, so a failure of the one does not count
for the other. -/
theorem deployments_told_apart :
    unnamed.gvk = nowhere.gvk ∧ unnamed.SlashFree ∧ nowhere.SlashFree ∧
      unnamed.text ≠ nowhere.text ∧
      ((Backoff.standard.fail nowhere.text).next unnamed.text).2.failures nowhere.text = 1 ∧
      GroupVersionKind.ofApiVersion "apps/v1/beta" "Deployment" = nowhere.gvk ∧
      (GroupVersionKind.ofApiVersion "/v1" "Pod").apiVersion ≠ "/v1" := by
  have placed : unnamed.SlashFree := ⟨by decide, by rintro _ ⟨⟩; decide⟩
  have plain : nowhere.SlashFree := ⟨by decide, nofun⟩
  have other : unnamed ≠ nowhere := by decide
  have legible : nowhere.gvk.Legible := ⟨by decide, by decide⟩
  obtain ⟨written, read, keys⟩ := texts_faithful
  obtain ⟨texts, counts⟩ := keys unnamed nowhere rfl placed plain
  refine ⟨rfl, placed, plain, mt texts.1 other, ?_, (read _).2 legible, ?_⟩
  · rw [(counts _).1, if_neg other.symm, Backoff.failures_fail, if_pos rfl]
    rfl
  · exact mt (written "/v1" "Pod").1 (by decide)

end Instance

end ObjectKey

end DesiredState
