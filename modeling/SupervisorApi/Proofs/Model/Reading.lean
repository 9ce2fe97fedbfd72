import Mathlib.Data.List.Forall2
import Mathlib.Tactic.Common
import SupervisorApi.Model.Decode
import SupervisorApi.Proofs.Error.Mapping

set_option autoImplicit false

namespace SupervisorApi

section Results

variable {α β ε : Type}

theorem Except.map_eq_ok_iff {x : Except ε α} {f : α → β} {b : β} :
    x.map f = .ok b ↔ ∃ a, x = .ok a ∧ f a = b := by
  cases x <;> simp [Except.map]

theorem Except.bind_eq_ok_iff {x : Except ε α} {f : α → Except ε β} {b : β} :
    (x >>= f) = .ok b ↔ ∃ a, x = .ok a ∧ f a = .ok b := by
  cases x <;> simp [bind, Except.bind]

theorem mapM_eq_ok_iff {f : α → Except ε β} {xs : List α} {ys : List β} :
    xs.mapM f = .ok ys ↔ List.Forall₂ (fun x y => f x = .ok y) xs ys := by
  induction xs generalizing ys with
  | nil => cases ys <;> simp [pure, Except.pure]
  | cons x xs ih =>
    simp only [List.mapM_cons, Except.bind_eq_ok_iff, ih, List.forall₂_cons_left_iff]
    constructor
    · rintro ⟨y, first, rest, later, same⟩
      cases same
      exact ⟨y, rest, first, later, rfl⟩
    · rintro ⟨y, rest, first, later, rfl⟩
      exact ⟨y, first, rest, later, rfl⟩

theorem mapM_map_ok {γ : Type} {f : α → γ} {g : γ → Except ε β} {h : α → β} (xs : List α)
    (each : ∀ x ∈ xs, g (f x) = .ok (h x)) : (xs.map f).mapM g = .ok (xs.map h) := by
  rw [mapM_eq_ok_iff, List.forall₂_map_left_iff, List.forall₂_map_right_iff, List.forall₂_same]
  exact each

theorem exists_of_forall₂ {R : α → β → Prop} {xs : List α} {ys : List β} {y : β}
    (related : List.Forall₂ R xs ys) (member : y ∈ ys) : ∃ x, R x y := by
  induction related with
  | nil => cases member
  | cons first _ ih =>
    cases member with
    | head => exact ⟨_, first⟩
    | tail _ later => exact ih later

theorem forall₂_of_common {γ : Type} {R : α → β → Prop} {Q : α → γ → Prop} {S : γ → β → Prop}
    {xs : List α} {ys : List β} {zs : List γ} (left : List.Forall₂ R xs ys)
    (right : List.Forall₂ Q xs zs) (each : ∀ x y z, R x y → Q x z → S z y) :
    List.Forall₂ S zs ys := by
  induction left generalizing zs with
  | nil => cases right; exact .nil
  | cons first _ ih =>
    cases right with
    | cons same right => exact .cons (each _ _ _ first same) (ih right)

end Results

namespace Reading

variable {α β : Type} {x : Reading α} {y : Reading β} {name : String}

theorem both_eq_done_iff {a : α} {b : β} : x.both y = .done (a, b) ↔ x = .done a ∧ y = .done b := by
  cases x with
  | done => cases y <;> simp [both]
  | missing => cases y <;> simp [both]
  | bad =>
    cases y with
    | bad => simp only [both]; split <;> simp
    | _ => simp [both]

theorem map_eq_done_iff {f : α → β} {b : β} : x.map f = .done b ↔ ∃ a, x = .done a ∧ f a = b := by
  cases x <;> simp [map]

theorem result_eq_ok_iff {a : α} : x.result = .ok a ↔ x = .done a := by
  cases x <;> simp [result]

theorem ofExcept_eq_done_iff {r : Except DecodeError α} {a : α} :
    ofExcept name r = .done a ↔ r = .ok a := by
  cases r <;> simp [ofExcept]

end Reading

namespace Members

variable {ms : Members}

theorem get?_ofList (apart : (ms.map Prod.fst).Nodup) (key : String) :
    (ofList ms).get? key = ms.get? key := by
  have whole := get?_putAll (List.pairwise_map.mp apart) [] key
  rw [show get? key [] = none from rfl, Option.or_none] at whole
  exact whole

theorem get?_append (front back : Members) (key : String) :
    (front ++ back).get? key = (front.get? key).or (back.get? key) := by
  induction front with
  | nil => rfl
  | cons m front ih =>
    obtain ⟨k, v⟩ := m
    by_cases same : k = key <;> simp [get?, same, ih]

theorem get?_of_not_mem {key : String} (absent : key ∉ ms.map Prod.fst) : ms.get? key = none :=
  get?_eq_none fun _ member same => absent (same ▸ List.mem_map_of_mem member)

theorem put_of_after {key : String} (value : Json) (after : ∀ m ∈ ms, m.1 < key) :
    put key value ms = ms ++ [(key, value)] := by
  induction ms with
  | nil => rfl
  | cons m ms ih =>
    have less := after m List.mem_cons_self
    rw [put, if_neg fun same => String.lt_irrefl _ (same ▸ less), if_neg (String.lt_asymm less),
      ih fun other member => after other (List.mem_cons_of_mem _ member), List.cons_append]

theorem ofList_of_ascending (ascending : ms.Pairwise (·.1 < ·.1)) : ofList ms = ms := by
  induction ms using List.reverseRecOn with
  | nil => rfl
  | append_singleton ms m ih =>
    obtain ⟨before, -, after⟩ := List.pairwise_append.mp ascending
    have whole : ofList (ms ++ [m]) = put m.1 m.2 (ofList ms) := by
      simp [ofList, List.foldl_append]
    rw [whole, ih before, put_of_after m.2 fun other member => after other member m (by simp)]

end Members

namespace Dict

variable {β : Type} {l : List (String × β)}

theorem place_of_after {key : String} (value : β) (after : ∀ e ∈ l, e.1 < key) :
    place key value l = l ++ [(key, value)] := by
  induction l with
  | nil => rfl
  | cons e l ih =>
    have less := after e List.mem_cons_self
    rw [place, if_neg (String.lt_asymm less), if_pos less,
      ih fun other member => after other (List.mem_cons_of_mem _ member), List.cons_append]

theorem entries_ofList_concat (l : List (String × β)) (e : String × β) :
    (ofList (l ++ [e])).entries = place e.1 e.2 (ofList l).entries := by
  simp [ofList, List.foldl_append, insert]

theorem entries_ofList (ascending : l.Pairwise (·.1 < ·.1)) : (ofList l).entries = l := by
  induction l using List.reverseRecOn with
  | nil => rfl
  | append_singleton l e ih =>
    obtain ⟨before, -, after⟩ := List.pairwise_append.mp ascending
    rw [entries_ofList_concat, ih before, place_of_after e.2 fun other member => after other member e (by simp)]

theorem ofList_entries (d : Dict β) : ofList d.entries = d :=
  ext (entries_ofList d.ascending)

theorem mem_place {key : String} {value : β} {e : String × β} (member : e ∈ place key value l) :
    e = (key, value) ∨ e ∈ l := by
  induction l with
  | nil => exact .inl (List.mem_singleton.mp member)
  | cons other l ih =>
    unfold place at member
    split at member
    next => exact List.mem_cons.mp member
    next =>
      split at member
      next =>
        obtain rfl | later := List.mem_cons.mp member
        · exact .inr List.mem_cons_self
        · exact (ih later).imp_right (List.mem_cons_of_mem _)
      next => exact (List.mem_cons.mp member).imp_right (List.mem_cons_of_mem _)

theorem mem_of_mem_ofList {e : String × β} (member : e ∈ (ofList l).entries) : e ∈ l := by
  induction l using List.reverseRecOn with
  | nil => cases member
  | append_singleton l last ih =>
    rw [entries_ofList_concat] at member
    obtain rfl | before := mem_place member
    · exact List.mem_append_right _ List.mem_cons_self
    · exact List.mem_append_left _ (ih before)

end Dict

namespace Tree

variable {α : Type} {own : (String → Option Json) → Reading α} {width : Nat}
  {row : List Json → Except DecodeError α} {children : String} {t : Tree α}

theorem decode_obj_iff {ms : Members} : decode own width row children (.obj ms) = .ok t ↔
    ∃ a xs ts, own (Members.look ms) = .done a ∧ ms.get? children = some (.arr xs) ∧
      List.Forall₂ (fun x t => decode own width row children x = .ok t) xs ts ∧
      t = .node a ts := by
  rw [decode, Except.map_eq_ok_iff]
  simp only [Reading.result_eq_ok_iff, Prod.exists, Reading.both_eq_done_iff]
  constructor
  · rintro ⟨a, ts, ⟨read, below⟩, rfl⟩
    split at below
    next => cases below
    next xs found =>
      rw [Reading.ofExcept_eq_done_iff, List.mapM_subtype (fun _ _ => rfl), List.unattach_attach,
        mapM_eq_ok_iff] at below
      exact ⟨a, xs, ts, read, found, below, rfl⟩
    next => cases below
  · rintro ⟨a, xs, ts, read, found, below, rfl⟩
    refine ⟨a, ts, ⟨read, ?_⟩, rfl⟩
    split
    next absent => simp [found] at absent
    next ys same =>
      obtain rfl : xs = ys := by simpa [found] using same
      rw [Reading.ofExcept_eq_done_iff, List.mapM_subtype (fun _ _ => rfl), List.unattach_attach,
        mapM_eq_ok_iff]
      exact below
    next other same =>
      rw [found] at same
      cases same
      exact absurd rfl (other xs)

theorem decode_arr_iff {xs : List Json} : decode own width row children (.arr xs) = .ok t ↔
    ∃ a ys ts, row (xs.take width) = .ok a ∧ xs.drop width = [.arr ys] ∧
      List.Forall₂ (fun y t => decode own width row children y = .ok t) ys ts ∧
      t = .node a ts := by
  rw [decode]
  simp only [Except.bind_eq_ok_iff]
  constructor
  · rintro ⟨a, read, below⟩
    split at below
    next ys rest found =>
      rw [Except.bind_eq_ok_iff] at below
      obtain ⟨ts, below, last⟩ := below
      rw [List.mapM_subtype (fun _ _ => rfl), List.unattach_attach, mapM_eq_ok_iff] at below
      cases rest with
      | nil =>
        cases last
        exact ⟨a, ys, ts, read, found, below, rfl⟩
      | cons => cases last
    next => cases below
  · rintro ⟨a, ys, ts, read, found, below, rfl⟩
    refine ⟨a, read, ?_⟩
    split
    next zs rest same =>
      rw [found] at same
      cases same
      rw [Except.bind_eq_ok_iff]
      refine ⟨ts, ?_, rfl⟩
      rw [List.mapM_subtype (fun _ _ => rfl), List.unattach_attach, mapM_eq_ok_iff]
      exact below
    next other => exact absurd found (other ys [])

theorem of_decode {j : Json} (read : decode own width row children j = .ok t) :
    (∃ ms, j = .obj ms) ∨ ∃ xs, j = .arr xs := by
  cases j with
  | obj ms => exact .inl ⟨ms, rfl⟩
  | arr xs => exact .inr ⟨xs, rfl⟩
  | _ => simp [decode] at read

end Tree

end SupervisorApi
