import SupervisorApi.Net.Address
import SupervisorApi.Proofs.Text.Digits

set_option autoImplicit false

namespace SupervisorApi

namespace Ipv4

theorem part_suffix {s r : List Char} {a : UInt8} (read : part s = some (a, r)) : r <:+ s := by
  have tail := Digits.take_suffix 4 s
  unfold part at read
  split at read
  next => cases read
  next => cases read
  next ds rest _ _ taken =>
    rw [taken] at tail
    split at read
    · cases read
      exact tail
    · cases read

theorem scan_of_not_mem {s : List Char} (dotless : '.' ∉ s) : scan s = none := by
  cases read : part s with
  | none => simp [scan, read]
  | some p =>
    obtain ⟨a, r⟩ := p
    have rest : '.' ∉ r := fun member => dotless ((part_suffix read).mem member)
    have stop : dot r = none := by
      unfold dot
      split
      · simp at rest
      · rfl
    simp [scan, read, stop]

def decimal (a : UInt8) : List Char :=
  Nat.toDigits 10 a.toNat

theorem toList_render (x : Ipv4) :
    x.render.toList = decimal x.a ++ '.' :: decimal x.b ++ '.' :: decimal x.c ++ '.' :: decimal x.d := by
  simp [render, decimal, toString]

theorem part_decimal (a : UInt8) {r : List Char} (ends : ∀ c ∈ r.head?, Digits.value? c = none) :
    part (decimal a ++ r) = some (a, r) := by
  obtain ⟨ds, written, spelt, some, leading⟩ := Digits.exists_toDigits (by decide : 1 < 10) a.toNat
  have length : ds.length ≤ 3 := by
    have short := (Nat.length_toDigits_le_iff (by decide : 1 < 10) (by decide : 0 < 3)).mpr
      (by have := a.toNat_lt; omega : a.toNat < 10 ^ 3)
    rwa [written, List.length_map] at short
  have taken : Digits.take 4 (decimal a ++ r) = (ds, r) := by
    rw [decimal, written]
    exact Digits.take_map spelt.small (by omega) (.inr ends)
  unfold part
  rw [taken]
  split
  next none => exact absurd (Prod.mk.inj none).1 some
  next d rest _ zero => exact absurd (Prod.mk.inj zero).1 (leading d rest)
  next ds' r' _ _ same =>
    cases same
    rw [if_pos ⟨length, by rw [spelt.number]; exact a.toNat_lt⟩, spelt.number, UInt8.ofNat_toNat]

theorem part_dot (a : UInt8) (r : List Char) : part (decimal a ++ '.' :: r) = some (a, '.' :: r) := by
  refine part_decimal a fun c first => ?_
  obtain rfl : '.' = c := by simpa using first
  decide

theorem scan_toList (x : Ipv4) : scan x.render.toList = some (x, []) := by
  have last : part (decimal x.d) = some (x.d, []) := by
    simpa using part_decimal x.d (r := []) (by simp)
  rw [toList_render]
  simp only [List.append_assoc, List.cons_append, scan]
  simp [part_dot, dot, last]

theorem parse_render (x : Ipv4) : parse x.render = some x := by
  rw [parse, scan_toList]

theorem scan_of_not_digit {s : List Char} (ends : ∀ c ∈ s.head?, Digits.value? c = none) :
    scan s = none := by
  simp [scan, part, Digits.take_of_not_digit ends]

end Ipv4

namespace Ipv6

variable {g : UInt16} {gs front back : List UInt16} {r s : List Char} {n : Nat}

theorem hexDigits_map {ds : List Nat} {n : Nat} (small : ∀ d ∈ ds, d < 16) (length : ds.length < n)
    (ends : ∀ c ∈ r.head?, Digits.hexValue? c = none) :
    hexDigits n (ds.map Nat.digitChar ++ r) = (ds, r) := by
  induction ds generalizing n with
  | nil =>
    obtain ⟨n, rfl⟩ : ∃ m, n = m + 1 := ⟨n - 1, by simp at length; omega⟩
    cases r with
    | nil => rfl
    | cons c r => simp [hexDigits, ends c rfl]
  | cons d ds ih =>
    obtain ⟨n, rfl⟩ : ∃ m, n = m + 1 := ⟨n - 1, by simp at length; omega⟩
    have rest := ih (n := n) (fun e member => small e (List.mem_cons_of_mem _ member))
      (by simpa using length)
    simp only [List.map_cons, List.cons_append, hexDigits,
      Digits.hexValue?_digitChar (small d List.mem_cons_self), rest]

theorem group_hex (g : UInt16) (ends : ∀ c ∈ r.head?, Digits.hexValue? c = none) :
    group (hex g ++ r) = some (g, r) := by
  obtain ⟨ds, written, spelt, some, -⟩ := Digits.exists_toDigits (by decide : 1 < 16) g.toNat
  have length : ds.length ≤ 4 := by
    have short := (Nat.length_toDigits_le_iff (by decide : 1 < 16) (by decide : 0 < 4)).mpr
      (by have := g.toNat_lt; omega : g.toNat < 16 ^ 4)
    rwa [written, List.length_map] at short
  have taken : hexDigits 5 (hex g ++ r) = (ds, r) := by
    rw [hex, written]
    exact hexDigits_map spelt.small (by omega) ends
  unfold group
  rw [taken]
  split
  next none => exact absurd (Prod.mk.inj none).1 some
  next ds' r' _ same =>
    cases same
    rw [if_pos length, spelt.value, UInt16.ofNat_toNat]

theorem mem_hex {c : Char} (member : c ∈ hex g) : ∃ d, d < 16 ∧ c = Nat.digitChar d := by
  obtain ⟨ds, written, spelt, -⟩ := Digits.exists_toDigits (by decide : 1 < 16) g.toNat
  rw [hex, written] at member
  obtain ⟨d, present, rfl⟩ := List.mem_map.mp member
  exact ⟨d, spelt.small d present, rfl⟩

def tail (gs : List UInt16) : List Char :=
  gs.flatMap fun g => ':' :: hex g

theorem joinGroups_cons (g : UInt16) (gs : List UInt16) :
    joinGroups (g :: gs) = hex g ++ tail gs := by
  induction gs generalizing g with
  | nil => simp [joinGroups, tail]
  | cons h gs ih =>
    have rest := ih h
    simp only [joinGroups, List.map_cons] at rest ⊢
    rw [List.intercalate_cons_cons, rest]
    simp [tail]

theorem dot_not_mem_hex (g : UInt16) : '.' ∉ hex g := by
  intro member
  obtain ⟨d, small, same⟩ := mem_hex member
  interval_cases d <;> simp_all

theorem dot_not_mem_tail (gs : List UInt16) : '.' ∉ tail gs := by
  intro member
  obtain ⟨g, -, inside⟩ := List.mem_flatMap.mp member
  rcases List.mem_cons.mp inside with same | inside
  · cases same
  · exact dot_not_mem_hex g inside

theorem dot_not_mem_joinGroups (gs : List UInt16) : '.' ∉ joinGroups gs := by
  cases gs with
  | nil => simp [joinGroups]
  | cons g gs =>
    rw [joinGroups_cons, List.mem_append, not_or]
    exact ⟨dot_not_mem_hex g, dot_not_mem_tail gs⟩

def Stops (r : List Char) : Prop :=
  r = [] ∨ ∃ rest, r = ':' :: ':' :: rest

theorem Stops.not_hex (stops : Stops r) : ∀ c ∈ r.head?, Digits.hexValue? c = none := by
  rcases stops with rfl | ⟨rest, rfl⟩
  · simp
  · simp only [List.head?_cons, Option.mem_some_iff, forall_eq']
    decide

theorem group_of_not_hex (ends : ∀ c ∈ s.head?, Digits.hexValue? c = none) : group s = none := by
  cases s with
  | nil => rfl
  | cons c s => simp [group, hexDigits, ends c rfl]

theorem not_digit_of_not_hex {c : Char} (other : Digits.hexValue? c = none) :
    Digits.value? c = none := by
  unfold Digits.hexValue? at other
  unfold Digits.value?
  split at other
  next => cases other
  next no => exact if_neg no

theorem run_of_not_hex (first : Bool) (ends : ∀ c ∈ s.head?, Digits.hexValue? c = none)
    (gap : first = false → Stops s) : run n first s = ([], false, s) := by
  cases n with
  | zero => rfl
  | succ n =>
    have stop (t : List Char) (ends : ∀ c ∈ t.head?, Digits.hexValue? c = none) :
        (if 0 < n then Ipv4.scan t else none) = none ∧ group t = none := by
      refine ⟨?_, group_of_not_hex ends⟩
      rw [Ipv4.scan_of_not_digit fun c first => not_digit_of_not_hex (ends c first), ite_self]
    cases first with
    | true =>
      obtain ⟨noQuad, noGroup⟩ := stop s ends
      simp [run, between, noQuad, noGroup]
    | false =>
      rcases gap rfl with rfl | ⟨rest, rfl⟩
      · rfl
      · obtain ⟨noQuad, noGroup⟩ := stop (':' :: rest) ends
        simp [run, between, noQuad, noGroup]

theorem run_group (first : Bool) (noQuad : Ipv4.scan (hex g ++ r) = none)
    (ends : ∀ c ∈ r.head?, Digits.hexValue? c = none)
    (opened : between first s = some (hex g ++ r)) :
    run (n + 1) first s =
      (g :: (run n false r).1, (run n false r).2.1, (run n false r).2.2) := by
  simp [run, opened, noQuad, group_hex g ends]

theorem scan_groups (g : UInt16) (gs : List UInt16) (dotless : '.' ∉ r) :
    Ipv4.scan (hex g ++ (tail gs ++ r)) = none := by
  refine Ipv4.scan_of_not_mem fun member => ?_
  rcases List.mem_append.mp member with member | member
  · exact dot_not_mem_hex g member
  · rcases List.mem_append.mp member with member | member
    · exact dot_not_mem_tail gs member
    · exact dotless member

theorem tail_head (stops : Stops r) :
    ∀ c ∈ (tail gs ++ r).head?, Digits.hexValue? c = none := by
  cases gs with
  | nil => exact stops.not_hex
  | cons g gs =>
    simp only [tail, List.flatMap_cons, List.cons_append, List.head?_cons, Option.mem_some_iff,
      forall_eq']
    decide

theorem run_tail (gs : List UInt16) (stops : Stops r) (dotless : '.' ∉ r) (few : gs.length ≤ n) :
    run n false (tail gs ++ r) = (gs, false, r) := by
  induction gs generalizing n with
  | nil => exact run_of_not_hex false stops.not_hex fun _ => stops
  | cons g gs ih =>
    obtain ⟨n, rfl⟩ : ∃ m, n = m + 1 := ⟨n - 1, by simp at few; omega⟩
    have rest := ih (n := n) (by simpa using few)
    have opened : between false (tail (g :: gs) ++ r) = some (hex g ++ (tail gs ++ r)) := by
      simp [tail, between]
    rw [run_group false (scan_groups g gs dotless) (tail_head stops) opened, rest]

theorem run_joinGroups (gs : List UInt16) (stops : Stops r) (dotless : '.' ∉ r)
    (few : gs.length ≤ n) : run n true (joinGroups gs ++ r) = (gs, false, r) := by
  cases gs with
  | nil => exact run_of_not_hex true stops.not_hex fun no => by cases no
  | cons g gs =>
    obtain ⟨n, rfl⟩ : ∃ m, n = m + 1 := ⟨n - 1, by simp at few; omega⟩
    rw [joinGroups_cons, List.append_assoc,
      run_group true (scan_groups g gs dotless) (tail_head stops) rfl,
      run_tail gs stops dotless (by simpa using few)]

theorem take_zeros {n : Nat} (few : n ≤ zeros gs) : gs.take n = List.replicate n 0 := by
  induction gs generalizing n with
  | nil =>
    obtain rfl : n = 0 := by simpa [zeros] using few
    rfl
  | cons g gs ih =>
    cases n with
    | zero => rfl
    | succ n =>
      by_cases zero : g = 0
      · subst zero
        rw [List.take_succ_cons, ih (by simpa [zeros] using few), List.replicate_succ]
      · simp [zeros, zero] at few

theorem longestGap_zeros (gs : List UInt16) :
    (longestGap gs).2 ≤ zeros (gs.drop (longestGap gs).1) := by
  unfold longestGap
  refine List.foldlRecOn (motive := fun (best : Nat × Nat) => best.2 ≤ zeros (gs.drop best.1))
    _ _ (Nat.zero_le _) ?_
  intro best inside i _
  split
  · exact Nat.le_refl _
  · exact inside

theorem zeros_le_length (gs : List UInt16) : zeros gs ≤ gs.length :=
  (List.takeWhile_sublist _).length_le

theorem eq_of_gap {start length : Nat} (gap : length ≤ zeros (gs.drop start)) :
    gs.take start ++ List.replicate length 0 ++ gs.drop (start + length) = gs := by
  rw [← take_zeros gap, List.append_assoc, ← List.drop_drop, List.take_append_drop,
    List.take_append_drop]

theorem ofGroups_groups (x : Ipv6) : ofGroups x.groups = some x := by
  rw [ofGroups, dif_pos x.eight]

theorem parse_of_whole {text : String} {gs : List UInt16}
    (whole : run 8 true text.toList = (gs, false, [])) (eight : gs.length = 8) :
    parse text = some ⟨gs, eight⟩ := by
  unfold parse
  rw [whole]
  simp [eight, ofGroups]

theorem parse_of_gap {text : String} {rest : List Char} {quad : Bool}
    (first : run 8 true text.toList = (front, false, ':' :: ':' :: rest)) (short : front.length < 8)
    (second : run (7 - front.length) true rest = (back, quad, [])) :
    parse text =
      ofGroups (front ++ List.replicate (8 - front.length - back.length) 0 ++ back) := by
  unfold parse
  rw [first]
  simp [second, short.ne]

theorem parse_joinGroups (x : Ipv6) : parse (String.ofList (joinGroups x.groups)) = some x := by
  have whole := run_joinGroups (n := 8) x.groups (r := []) (.inl rfl) (by simp) x.eight.le
  rw [List.append_nil] at whole
  exact parse_of_whole (by rw [String.toList_ofList, whole]) x.eight

theorem parse_shortened (x : Ipv6) {start length : Nat} (two : 2 ≤ length)
    (gap : length ≤ zeros (x.groups.drop start)) :
    parse (String.ofList (joinGroups (x.groups.take start) ++ [':', ':']
      ++ joinGroups (x.groups.drop (start + length)))) = some x := by
  have bound : start + length ≤ 8 := by
    have inside := gap.trans (zeros_le_length _)
    rw [List.length_drop, x.eight] at inside
    omega
  have front : (x.groups.take start).length = start := by
    rw [List.length_take, x.eight]
    omega
  have back : (x.groups.drop (start + length)).length = 8 - (start + length) := by
    rw [List.length_drop, x.eight]
  have first := run_joinGroups (n := 8) (x.groups.take start)
    (r := ':' :: ':' :: joinGroups (x.groups.drop (start + length))) (.inr ⟨_, rfl⟩)
    (by simp [dot_not_mem_joinGroups]) (by omega)
  have second := run_joinGroups (n := 7 - (x.groups.take start).length)
    (x.groups.drop (start + length)) (r := []) (.inl rfl) (by simp) (by omega)
  rw [List.append_nil] at second
  have missing : 8 - start - (8 - (start + length)) = length := by omega
  rw [parse_of_gap (by simpa using first) (by omega) second, front, back, missing, eq_of_gap gap,
    ofGroups_groups]

theorem pair_bytes (x : UInt16) : pair (x >>> 8).toUInt8 x.toUInt8 = x := by
  apply UInt16.toNat.inj
  have bound := x.toNat_lt
  simp only [pair, UInt16.toNat_toUInt8, UInt16.toNat_shiftRight]
  simp [Nat.shiftRight_eq_div_pow]
  omega

theorem run_gap (n : Nat) (s : List Char) :
    run n true (':' :: ':' :: s) = ([], false, ':' :: ':' :: s) :=
  run_of_not_hex true (Stops.not_hex (.inr ⟨s, rfl⟩)) fun no => by cases no

theorem run_quad (q : Ipv4) :
    run 7 true ("ffff:".toList ++ q.render.toList) =
      ([0xFFFF, pair q.a q.b, pair q.c q.d], true, []) := by
  have noQuad : Ipv4.scan (hex 0xFFFF ++ ':' :: q.render.toList) = none := by
    refine Ipv4.scan_of_not_digit fun c first => ?_
    obtain rfl : 'f' = c := Option.some.inj first
    decide
  have read : run 6 false (':' :: q.render.toList) = ([pair q.a q.b, pair q.c q.d], true, []) := by
    simp [run, between, Ipv4.scan_toList]
  have opened : between true ("ffff:".toList ++ q.render.toList) =
      some (hex 0xFFFF ++ ':' :: q.render.toList) := rfl
  rw [run_group true noQuad (by simp; decide) opened, read]

theorem parse_mapped {groups : List UInt16} {q : Ipv4} (mapped : mapped? groups = some q)
    (eight : groups.length = 8) : parse ("::ffff:" ++ q.render) = some ⟨groups, eight⟩ := by
  unfold mapped? at mapped
  split at mapped
  next x y =>
    have text : ("::ffff:" ++ q.render).toList =
        ':' :: ':' :: ("ffff:".toList ++ q.render.toList) := by
      rw [String.toList_append]
      rfl
    have first : run 8 true ("::ffff:" ++ q.render).toList =
        ([], false, ':' :: ':' :: ("ffff:".toList ++ q.render.toList)) := by
      rw [text, run_gap]
    rw [parse_of_gap first (by decide) (run_quad q)]
    cases mapped
    simp [ofGroups, pair_bytes]
  next => cases mapped

theorem parse_render (x : Ipv6) : parse x.render = some x := by
  unfold render
  split
  next q mapped => exact parse_mapped mapped x.eight
  next =>
    have gap := longestGap_zeros x.groups
    generalize longestGap x.groups = best at gap
    obtain ⟨start, length⟩ := best
    by_cases two : 2 ≤ length
    · simp only [if_pos two]
      exact parse_shortened x two gap
    · simp only [if_neg two]
      exact parse_joinGroups x

end Ipv6

end SupervisorApi
