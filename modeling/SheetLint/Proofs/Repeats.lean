import SheetLint.Proofs.Findings
import Mathlib.Data.List.Induction

/-! Lists of which the first of any that are the same are kept, as collectors keep them. What is kept of a
list goes with a selection from it, with a change that keeps apart what is different, and with another
order. -/
namespace SheetLint

namespace Repeats

variable {α β : Type} [DecidableEq α] [DecidableEq β]

theorem eraseDups_concat (items : List α) (item : α) :
    (items ++ [item]).eraseDups =
      if item ∈ items then items.eraseDups else items.eraseDups ++ [item] := by
  rw [List.eraseDups_append]
  by_cases present : item ∈ items
  · simp [List.removeAll, present]
  · simp [List.removeAll, present, List.eraseDups_cons]

theorem nodup_eraseDups (items : List α) : items.eraseDups.Nodup := by
  induction items using List.reverseRecOn with
  | nil => exact List.nodup_nil
  | append_singleton before item ih =>
    rw [eraseDups_concat]
    split
    · exact ih
    · rename_i missing
      refine List.nodup_append.mpr ⟨ih, List.pairwise_singleton _ item, ?_⟩
      intro old present new single same
      rw [List.mem_singleton] at single
      exact missing (List.mem_eraseDups.mp (single ▸ same ▸ present))

/-- To select is to select from what is kept. -/
theorem eraseDups_filter (chosen : α → Bool) (items : List α) :
    (items.filter chosen).eraseDups = items.eraseDups.filter chosen := by
  induction items using List.reverseRecOn with
  | nil => rfl
  | append_singleton before item ih =>
    rw [List.filter_append, eraseDups_concat]
    cases kept : chosen item with
    | false =>
      have none : [item].filter chosen = [] := by simp [kept]
      rw [none, List.append_nil, ih]
      split
      · rfl
      · rw [List.filter_append, none, List.append_nil]
    | true =>
      have one : [item].filter chosen = [item] := by simp [kept]
      rw [one, eraseDups_concat, ih]
      by_cases present : item ∈ before
      · simp [List.mem_filter, present, kept]
      · simp [List.mem_filter, present, one]

/-- A change that keeps apart what is different changes what is kept. -/
theorem eraseDups_map {f : α → β} {items : List α}
    (apart : ∀ one ∈ items, ∀ other ∈ items, f one = f other → one = other) :
    (items.map f).eraseDups = items.eraseDups.map f := by
  induction items using List.reverseRecOn with
  | nil => rfl
  | append_singleton before item ih =>
    have kept := ih fun one first other second =>
      apart one (List.mem_append_left _ first) other (List.mem_append_left _ second)
    have same : f item ∈ before.map f ↔ item ∈ before := by
      refine ⟨fun member => ?_, List.mem_map_of_mem⟩
      obtain ⟨other, present, equal⟩ := List.mem_map.mp member
      have here : item ∈ before ++ [item] := List.mem_append_right _ (List.mem_singleton_self item)
      exact apart other (List.mem_append_left _ present) item here equal ▸ present
    rw [List.map_append, List.map_singleton, eraseDups_concat, eraseDups_concat, kept]
    simp only [same]
    split
    · rfl
    · rw [List.map_append, List.map_singleton]

/-- In another order as much is kept. -/
theorem eraseDups_perm {first second : List α} (same : first.Perm second) :
    first.eraseDups.Perm second.eraseDups := by
  rw [List.perm_ext_iff_of_nodup (nodup_eraseDups first) (nodup_eraseDups second)]
  intro item
  rw [List.mem_eraseDups, List.mem_eraseDups, same.mem_iff]

section

variable {ι κ : Type} [DecidableEq κ] (key : ι → κ)

private theorem any_key (items : List ι) (item : ι) :
    items.any (key item == key ·) = decide (key item ∈ items.map key) := by
  rw [Bool.eq_iff_iff, List.any_eq_true, decide_eq_true_iff, List.mem_map]
  simp only [beq_iff_eq, @eq_comm _ (key item)]

private theorem loop_concat (items seen : List ι) (item : ι) :
    List.eraseDupsBy.loop (key · == key ·) (items ++ [item]) seen =
      List.eraseDupsBy.loop (key · == key ·) items seen ++
        if key item ∈ (seen ++ items).map key then [] else [item] := by
  induction items generalizing seen with
  | nil =>
    by_cases held : key item ∈ seen.map key <;>
      simp only [List.nil_append, List.append_nil, List.eraseDupsBy.loop, any_key, held, decide_true,
        decide_false, ↓reduceIte, List.reverse_cons]
  | cons first rest ih =>
    simp only [List.cons_append, List.eraseDupsBy.loop, any_key]
    by_cases held : key first ∈ seen.map key
    · have known : key item ∈ (seen ++ first :: rest).map key ↔ key item ∈ (seen ++ rest).map key := by
        simp only [List.map_append, List.map_cons, List.mem_append, List.mem_cons]
        refine ⟨?_, Or.imp_right Or.inr⟩
        rintro (old | same | later)
        · exact .inl old
        · exact .inl (same ▸ held)
        · exact .inr later
      simp only [held, decide_true, ih, known]
    · have known : key item ∈ (seen ++ first :: rest).map key ↔
          key item ∈ (first :: seen ++ rest).map key := by
        simp only [List.map_append, List.map_cons, List.mem_append, List.mem_cons, List.cons_append]
        exact or_left_comm
      simp only [held, decide_false, ih, known]

/-- Of items that are the same where their keys are, the last one stays where its key is new. -/
theorem eraseDupsBy_concat (items : List ι) (item : ι) :
    (items ++ [item]).eraseDupsBy (key · == key ·) =
      items.eraseDupsBy (key · == key ·) ++ if key item ∈ items.map key then [] else [item] :=
  loop_concat key items [] item

/-- The first item with a key is kept. -/
theorem find?_eraseDupsBy (items : List ι) (wanted : κ) :
    (items.eraseDupsBy (key · == key ·)).find? (key · == wanted) = items.find? (key · == wanted) := by
  induction items using List.reverseRecOn with
  | nil => rfl
  | append_singleton before item ih =>
    rw [eraseDupsBy_concat, List.find?_append, List.find?_append, ih]
    split
    · rename_i held
      obtain ⟨other, member, same⟩ := List.mem_map.mp held
      by_cases here : key item = wanted
      · have found : (before.find? (key · == wanted)).isSome :=
          List.find?_isSome.mpr ⟨other, member, by simp [same, here]⟩
        rw [Option.or_of_isSome found, Option.or_of_isSome found]
      · simp [here]
    · rfl

theorem mem_map_eraseDupsBy (items : List ι) (wanted : κ) :
    wanted ∈ (items.eraseDupsBy (key · == key ·)).map key ↔ wanted ∈ items.map key := by
  have found (items : List ι) : wanted ∈ items.map key ↔ (items.find? (key · == wanted)).isSome := by
    rw [List.find?_isSome, List.mem_map]
    simp only [beq_iff_eq]
  rw [found, found, find?_eraseDupsBy]

end

end Repeats

namespace Collector

/-- A collector keeps the first of any issues that are the same, in the order of arrival. -/
theorem issues_ofList_eq_eraseDups (issues : List Issue) :
    (ofList issues).issues = issues.eraseDups := by
  induction issues using List.reverseRecOn with
  | nil => rfl
  | append_singleton before issue ih =>
    have last : ofList (before ++ [issue]) = (ofList before).add issue := extend_append _ _ _
    rw [last, Repeats.eraseDups_concat, ← ih]
    by_cases present : issue ∈ before
    · have held : issue ∈ (ofList before).issues := by rwa [ih, List.mem_eraseDups]
      rw [add_of_mem held, if_pos present]
    · have missing : issue ∉ (ofList before).issues := by rwa [ih, List.mem_eraseDups]
      rw [issues_add_of_not_mem missing, if_neg present]

/-- What is kept of two lists is kept of what each of them keeps. -/
theorem eraseDups_append_eraseDups (first second : List Issue) :
    (first.eraseDups ++ second.eraseDups).eraseDups = (first ++ second).eraseDups := by
  have front : empty.extend first.eraseDups = ofList first := by
    rw [← issues_ofList_eq_eraseDups]
    exact merge_ofList first
  have back : (ofList first).extend second.eraseDups = (ofList first).extend second := by
    rw [← issues_ofList_eq_eraseDups]
    exact merge_ofList second
  calc (first.eraseDups ++ second.eraseDups).eraseDups
      = (ofList (first.eraseDups ++ second.eraseDups)).issues := (issues_ofList_eq_eraseDups _).symm
    _ = (ofList (first ++ second)).issues := by
        rw [ofList, extend_append, front, back, ← merge_ofList, ofList_merge_ofList]
    _ = (first ++ second).eraseDups := issues_ofList_eq_eraseDups _

end Collector
end SheetLint
