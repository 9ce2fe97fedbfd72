import Mathlib.Data.List.Nodup
import Mathlib.Data.List.Perm.Basic
import SupervisorApi.Proofs.Model.Reading

set_option autoImplicit false

namespace SupervisorApi

namespace Members

variable {ms ns : Members}

theorem isSome_get?_iff {ms : Members} {key : String} :
    (get? key ms).isSome = true ↔ key ∈ ms.map Prod.fst := by
  induction ms with
  | nil => simp [get?]
  | cons m ms ih =>
    obtain ⟨k, v⟩ := m
    by_cases same : k = key
    · simp [get?, same]
    · simp [get?, same, ih, Ne.symm same]

theorem ofList_eq_nil_iff {ms : Members} (apart : (ms.map Prod.fst).Nodup) :
    ofList ms = [] ↔ ms = [] := by
  constructor
  · intro empty
    cases ms with
    | nil => rfl
    | cons m ms =>
      have first : get? m.1 (ofList (m :: ms)) = some m.2 := by simp [get?_ofList apart, get?]
      rw [empty] at first
      cases first
  · rintro rfl
    rfl

theorem perm_put {key : String} (value : Json) (absent : key ∉ ms.map Prod.fst) :
    (put key value ms).Perm ((key, value) :: ms) := by
  induction ms with
  | nil => exact .refl _
  | cons m ms ih =>
    obtain ⟨k, v⟩ := m
    simp only [List.map_cons, List.mem_cons, not_or] at absent
    rw [put, if_neg (Ne.symm absent.1)]
    split
    next => exact .refl _
    next => exact ((ih absent.2).cons _).trans (.swap _ _ _)

theorem mem_put {key : String} {value : Json} {m : String × Json} (member : m ∈ put key value ms) :
    m = (key, value) ∨ m ∈ ms := by
  induction ms with
  | nil => exact .inl (List.mem_singleton.mp member)
  | cons n ms ih =>
    obtain ⟨k, v⟩ := n
    rw [put] at member
    split at member
    next => exact (List.mem_cons.mp member).imp_right (List.mem_cons_of_mem _)
    next =>
      split at member
      next => exact List.mem_cons.mp member
      next =>
        rcases List.mem_cons.mp member with rfl | later
        · exact .inr List.mem_cons_self
        · exact (ih later).imp_right (List.mem_cons_of_mem _)

theorem pairwise_put {key : String} (value : Json) (ascending : ms.Pairwise (·.1 < ·.1)) :
    (put key value ms).Pairwise (·.1 < ·.1) := by
  induction ms with
  | nil => exact List.pairwise_singleton _ _
  | cons m ms ih =>
    obtain ⟨k, v⟩ := m
    obtain ⟨first, rest⟩ := List.pairwise_cons.mp ascending
    rw [put]
    split
    next same => exact List.pairwise_cons.mpr ⟨same ▸ first, rest⟩
    next other =>
      split
      next less =>
        refine List.pairwise_cons.mpr ⟨fun m member => ?_, ascending⟩
        rcases List.mem_cons.mp member with rfl | later
        · exact less
        · exact String.lt_trans less (first m later)
      next notLess =>
        have greater : k < key := String.not_le.mp fun le =>
          other (String.le_antisymm (String.not_lt.mp notLess) le)
        refine List.pairwise_cons.mpr ⟨fun m member => ?_, ih rest⟩
        rcases mem_put member with rfl | later
        · exact greater
        · exact first m later

theorem ofList_concat (ms : Members) (m : String × Json) :
    ofList (ms ++ [m]) = put m.1 m.2 (ofList ms) := by
  rw [ofList, List.foldl_append]
  rfl

theorem pairwise_ofList (ms : Members) : (ofList ms).Pairwise (·.1 < ·.1) := by
  induction ms using List.reverseRecOn with
  | nil => exact .nil
  | append_singleton ms m ih =>
    rw [ofList_concat]
    exact pairwise_put m.2 ih

theorem perm_ofList (apart : (ms.map Prod.fst).Nodup) : (ofList ms).Perm ms := by
  induction ms using List.reverseRecOn with
  | nil => exact .refl _
  | append_singleton ms m ih =>
    rw [List.map_append, List.nodup_append] at apart
    obtain ⟨before, -, different⟩ := apart
    have fresh : m.1 ∉ (ofList ms).map Prod.fst := fun member =>
      different m.1 (((ih before).map Prod.fst).subset member) m.1 (by simp) rfl
    rw [ofList_concat]
    exact (perm_put m.2 fresh).trans (((ih before).cons m).trans (List.perm_append_singleton m ms).symm)

theorem ofList_perm (perm : ms.Perm ns) (apart : (ms.map Prod.fst).Nodup) :
    ofList ms = ofList ns := by
  have apart' : (ns.map Prod.fst).Nodup := (perm.map Prod.fst).nodup_iff.mp apart
  have same : (ofList ms).Perm (ofList ns) :=
    ((perm_ofList apart).trans perm).trans (perm_ofList apart').symm
  exact same.eq_of_pairwise (fun a b _ _ less more => absurd more (String.lt_asymm less))
    (pairwise_ofList ms) (pairwise_ofList ns)

end Members

end SupervisorApi
