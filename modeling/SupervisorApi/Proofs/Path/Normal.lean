import SupervisorApi.Proofs.Path.Segments

set_option autoImplicit false

namespace SupervisorApi

namespace Path

def dot : UInt8 := 0x2E

def dropSegment (written : Bytes) : Bytes :=
  (written.reverse.dropWhile (· ≠ slash)).tail.reverse

/-- Removes dot segments: a dot stands for the segment it is in, two dots for the one above. -/
def removeDotsFrom (written : Bytes) : Bytes → Bytes
  | [] => written
  | b :: rest =>
    have _shorter := (List.dropWhile_suffix (· ≠ slash) (l := rest)).length_le
    let part := rest.takeWhile (· ≠ slash)
    let next := rest.dropWhile (· ≠ slash)
    if b ≠ slash then
      if isDots (b :: part) then removeDotsFrom written next.tail
      else removeDotsFrom (written ++ b :: part) next
    else if isDots part then
      let above := if part = [dot] then written else dropSegment written
      if next = [] then above ++ [slash] else removeDotsFrom above next
    else removeDotsFrom (written ++ slash :: part) next
  termination_by path => path.length
  decreasing_by all_goals simp only [List.length_tail, List.length_cons]; omega

def removeDots (path : Bytes) : Bytes :=
  removeDotsFrom [] path

example : removeDots (Utf8.encode "/a/b/c/./../../g") = Utf8.encode "/a/g" := by cbv

example : removeDots (Utf8.encode "mid/content=5/../6") = Utf8.encode "mid/6" := by cbv

theorem isDots_takeWhile {rest : Bytes}
    (clean : ∀ part ∈ split (slash :: rest), isDots part = false) :
    isDots (rest.takeWhile (· ≠ slash)) = false := by
  apply clean
  rw [split_cons_slash]
  exact List.mem_cons_of_mem _ (takeWhile_mem_split rest)

theorem clean_dropWhile {rest : Bytes}
    (clean : ∀ part ∈ split (slash :: rest), isDots part = false) :
    ∀ part ∈ split (rest.dropWhile (· ≠ slash)), isDots part = false := by
  intro part member
  rcases mem_split_dropWhile member with rfl | inside
  · rfl
  · apply clean
    rw [split_cons_slash]
    exact List.mem_cons_of_mem _ inside

theorem removeDotsFrom_of_clean (written : Bytes) {path : Bytes}
    (rooted : ∀ b ∈ path.head?, b = slash) (clean : ∀ part ∈ split path, isDots part = false) :
    removeDotsFrom written path = written ++ path := by
  -- What is left always begins with a slash, so every round moves one whole segment.
  fun_induction removeDotsFrom written path with
  | case1 written => exact (List.append_nil written).symm
  | case2 written b rest _ part next relative => exact absurd (rooted b rfl) relative
  | case3 written b rest _ part next relative => exact absurd (rooted b rfl) relative
  | case4 written b rest _ part next here dots =>
    rw [rooted b rfl] at clean
    exact absurd dots (Bool.eq_false_iff.mp (isDots_takeWhile clean))
  | case5 written b rest _ part next here dots =>
    rw [rooted b rfl] at clean
    exact absurd dots (Bool.eq_false_iff.mp (isDots_takeWhile clean))
  | case6 written b rest _ part next here plain ih =>
    rw [rooted b rfl] at clean ⊢
    rw [ih (head_dropWhile rest) (clean_dropWhile clean), List.append_assoc, List.cons_append,
      List.takeWhile_append_dropWhile]

def plain (path : Bytes) : Bytes :=
  (Percent.decode path).map fun b => if b = backslash then slash else b

def parts (path : Bytes) : List Bytes :=
  (split path).map Percent.decode

def normal (path : Bytes) : Bytes :=
  removeDots (plain path)

theorem plain_append_slash (s t : Bytes) :
    plain (s ++ slash :: t) = plain s ++ slash :: plain t := by
  rw [plain, decode_append_slash, List.map_append, List.map_cons]
  rfl

theorem plain_rooted {path : Bytes} (rooted : ∀ b ∈ path.head?, b = slash) :
    ∀ b ∈ (plain path).head?, b = slash := by
  cases path with
  | nil => simp [plain, Percent.decode]
  | cons b rest =>
    rw [rooted b rfl, ← List.nil_append (slash :: rest), plain_append_slash]
    intro b first
    cases first
    rfl

theorem map_of_not_mem {bs : Bytes} (absent : backslash ∉ bs) :
    bs.map (fun b => if b = backslash then slash else b) = bs := by
  rw [List.map_eq_iff]
  intro i
  cases found : bs[i]? with
  | none => rfl
  | some b =>
    have other : b ≠ backslash := fun same => absent (same ▸ List.mem_of_getElem? found)
    simp [other]

variable {base path : Bytes}

theorem parts_ne_nil (path : Bytes) : parts path ≠ [] := by
  simp [parts, split_ne_nil]

theorem of_mem_parts (safe : ∀ part ∈ split path, isSafeSegment part = true) {part : Bytes}
    (member : part ∈ parts path) : isDots part = false ∧ slash ∉ part ∧ backslash ∉ part := by
  obtain ⟨segment, present, rfl⟩ := List.mem_map.mp member
  exact (isSafeSegment_iff.mp (safe segment present)).2

theorem plain_of_safe (safe : ∀ part ∈ split path, isSafeSegment part = true) :
    plain path = joinSegments (parts path) := by
  have decoded := decode_eq_joinSegments path
  rw [plain, decoded]
  apply map_of_not_mem
  intro member
  rcases of_mem_intercalate member with same | ⟨part, present, inside⟩
  · exact absurd (List.mem_singleton.mp same) (by decide)
  · exact (of_mem_parts safe present).2.2 inside

theorem split_plain_of_safe (safe : ∀ part ∈ split path, isSafeSegment part = true) :
    split (plain path) = parts path := by
  rw [plain_of_safe safe]
  exact split_joinSegments (parts_ne_nil path) fun part member => (of_mem_parts safe member).2.1

theorem normal_append (rooted : ∀ b ∈ base.head?, b = slash)
    (clean : ∀ part ∈ split (plain base), isDots part = false)
    (safe : ∀ part ∈ split path, isSafeSegment part = true) :
    normal (base ++ slash :: path) = plain base ++ slash :: joinSegments (parts path) ∧
      split (normal (base ++ slash :: path)) = split (plain base) ++ parts path := by
  have still : normal (base ++ slash :: path) = plain base ++ slash :: plain path := by
    rw [normal, plain_append_slash, removeDots, removeDotsFrom_of_clean, List.nil_append]
    · intro b first
      cases start : plain base with
      | nil =>
        rw [start] at first
        cases first
        rfl
      | cons c rest =>
        rw [start] at first
        exact plain_rooted rooted b (by rw [start]; exact first)
    · intro part member
      rw [split_append_slash, List.mem_append, split_plain_of_safe safe] at member
      rcases member with inside | inside
      · exact clean part inside
      · exact (of_mem_parts safe inside).1
  rw [still]
  exact ⟨by rw [plain_of_safe safe], by rw [split_append_slash, split_plain_of_safe safe]⟩

end Path

end SupervisorApi
