import Mathlib.Data.List.DropRight
import Mathlib.Tactic.Common
import SupervisorApi.Http.Uri

set_option autoImplicit false

namespace SupervisorApi

section Lists

variable {α : Type} {p : α → Bool} {s t : List α}

theorem takeWhile_append_boundary (inside : ∀ a ∈ s, p a = true)
    (boundary : ∀ a ∈ t.head?, p a = false) : (s ++ t).takeWhile p = s := by
  rw [List.takeWhile_append_of_pos inside]
  cases t with
  | nil => simp
  | cons a t => simp [boundary a rfl]

theorem rdropWhile_append (kept : ∀ a ∈ s.getLast?, p a = false) :
    (s ++ t).rdropWhile p = s ++ t.rdropWhile p := by
  have still : s.rdropWhile p = s := by
    rw [List.rdropWhile_eq_self_iff]
    intro some
    rw [kept _ (List.getLast?_eq_some_getLast some)]
    exact Bool.false_ne_true
  induction t using List.reverseRecOn with
  | nil => simpa using still
  | append_singleton t a ih =>
    rw [← List.append_assoc, List.rdropWhile_concat, List.rdropWhile_concat]
    split
    · exact ih
    · rw [List.append_assoc]

end Lists

namespace Uri

structure Parts (text scheme authority tail : List Char) : Prop where
  whole : text = scheme ++ ':' :: '/' :: '/' :: (authority ++ tail)
  schemeChars : ∀ c ∈ scheme, isSchemeChar c = true
  schemeShort : scheme.length ≤ maxSchemeLength
  isAuthority : isAuthority authority = true
  authorityChars : ∀ c ∈ authority, endsAuthority c = false
  tailHead : ∀ c ∈ tail.head?, endsAuthority c = true

def ofParts (scheme authority path : List Char) (query : Option (List Char)) : Uri :=
  ⟨some (String.ofList scheme), String.ofList authority, String.ofList path,
    query.map String.ofList⟩

variable {text scheme authority tail : List Char}

theorem splitScheme_of_chars {rest : List Char} (chars : ∀ c ∈ scheme, isSchemeChar c = true) :
    splitScheme (scheme ++ ':' :: '/' :: '/' :: rest) = (some scheme, rest) := by
  have name : (scheme ++ ':' :: '/' :: '/' :: rest).takeWhile isSchemeChar = scheme :=
    takeWhile_append_boundary chars (by intro c first; cases first; decide)
  unfold splitScheme
  simp only [name, List.drop_left]

theorem splitScheme_some {s rest : List Char} (cut : splitScheme s = (some scheme, rest)) :
    s = scheme ++ ':' :: '/' :: '/' :: rest ∧ ∀ c ∈ scheme, isSchemeChar c = true := by
  have whole := List.prefix_iff_eq_append.mp (List.takeWhile_prefix isSchemeChar (l := s))
  unfold splitScheme at cut
  simp only at cut
  split at cut
  next remainder found =>
    cases cut
    rw [found] at whole
    exact ⟨whole.symm, fun c member => List.mem_takeWhile_imp member⟩
  next => cases cut

theorem Parts.authority_eq (parts : Parts text scheme authority tail) :
    (authority ++ tail).takeWhile (fun c => !endsAuthority c) = authority := by
  apply takeWhile_append_boundary
  · intro c member
    rw [parts.authorityChars c member]
    rfl
  · intro c first
    rw [parts.tailHead c first]
    rfl

theorem authority_ne_nil (good : isAuthority authority = true) : authority ≠ [] := by
  rintro rfl
  exact absurd good (by decide)

theorem Parts.absolute_eq (parts : Parts text scheme authority tail) :
    absolute scheme (authority ++ tail) =
      (splitQuery tail).map fun (path, query) => ofParts scheme authority path query := by
  unfold absolute
  simp only [parts.authority_eq, parts.schemeShort, parts.isAuthority, and_self, if_true,
    List.drop_left]
  cases splitQuery tail <;> rfl

theorem Parts.of_parse {s : String} {uri : Uri} (parts : Parts s.toList scheme authority tail)
    (read : parse s = .ok uri) :
    ∃ path query, splitQuery tail = some (path, query) ∧
      uri = ofParts scheme authority path query := by
  unfold parse at read
  split at read
  · cases read
  · rw [parts.whole, splitScheme_of_chars parts.schemeChars] at read
    simp only [parts.absolute_eq] at read
    cases cut : splitQuery tail with
    | none => simp [cut] at read
    | some found =>
      simp only [cut, Option.map_some, Except.ok.injEq] at read
      exact ⟨found.1, found.2, rfl, read.symm⟩

theorem relative_scheme {s : List Char} {uri : Uri} (read : relative s = some uri) :
    uri.scheme = none := by
  unfold relative at read
  split at read
  · cases read
    rfl
  next rest =>
    cases cut : splitQuery ('/' :: rest) with
    | none => simp [cut] at read
    | some found =>
      simp only [cut, Option.bind_eq_bind, Option.bind_some, Option.some.injEq] at read
      rw [← read]
  · split at read
    · cases read
      rfl
    · cases read

theorem absolute_parts {rest : List Char} {uri : Uri}
    (chars : ∀ c ∈ scheme, isSchemeChar c = true) (read : absolute scheme rest = some uri) :
    ∃ authority tail path query, rest = authority ++ tail ∧
      Parts (scheme ++ ':' :: '/' :: '/' :: rest) scheme authority tail ∧
        splitQuery tail = some (path, query) ∧ uri = ofParts scheme authority path query := by
  have whole := List.prefix_iff_eq_append.mp
    (List.takeWhile_prefix (fun c => !endsAuthority c) (l := rest))
  have behind := List.append_cancel_left (whole.trans List.takeWhile_append_dropWhile.symm)
  unfold absolute at read
  simp only at read
  split at read
  next good =>
    cases cut : splitQuery (rest.drop (rest.takeWhile fun c => !endsAuthority c).length) with
    | none => simp [cut] at read
    | some found =>
      simp only [cut, Option.bind_eq_bind, Option.bind_some, Option.some.injEq] at read
      refine ⟨_, _, found.1, found.2, whole.symm, ?_, cut, read.symm⟩
      refine ⟨by rw [whole], chars, good.1, good.2, ?_, ?_⟩
      · intro c member
        simpa using List.mem_takeWhile_imp member
      · intro c first
        have stopped := List.head?_dropWhile_not (fun c => !endsAuthority c) rest
        rw [behind] at first
        rw [Option.mem_def.mp first] at stopped
        simpa using stopped
  next => cases read

theorem parts_of_parse {s : String} {uri : Uri} (read : parse s = .ok uri)
    (schemed : uri.scheme ≠ none) :
    ∃ scheme authority tail path query, Parts s.toList scheme authority tail ∧
      splitQuery tail = some (path, query) ∧ uri = ofParts scheme authority path query := by
  unfold parse at read
  split at read
  · cases read
  · cases cut : splitScheme s.toList with
    | mk name rest =>
      rw [cut] at read
      cases name with
      | none =>
        cases found : relative rest with
        | none => simp [found] at read
        | some other =>
          simp only [found, Except.ok.injEq] at read
          rw [read] at found
          exact absurd (relative_scheme found) schemed
      | some scheme =>
        cases found : absolute scheme rest with
        | none => simp [found] at read
        | some other =>
          simp only [found, Except.ok.injEq] at read
          rw [read] at found
          obtain ⟨whole, chars⟩ := splitScheme_some cut
          obtain ⟨authority, tail, path, query, -, parts, split, same⟩ :=
            absolute_parts chars found
          rw [← whole] at parts
          exact ⟨scheme, authority, tail, path, query, parts, split, same⟩

theorem Parts.extend (parts : Parts text scheme authority tail) (more : List Char) :
    Parts (text.rdropWhile (· = '/') ++ '/' :: more) scheme authority
      (tail.rdropWhile (· = '/') ++ '/' :: more) := by
  have kept : ∀ c ∈ (scheme ++ [':', '/', '/'] ++ authority).getLast?,
      decide (c = '/') = false := by
    intro c last
    rw [List.getLast?_append_of_ne_nil _ (authority_ne_nil parts.isAuthority)] at last
    have ends := parts.authorityChars c (List.mem_of_getLast? last)
    refine decide_eq_false fun same => ?_
    rw [same] at ends
    exact absurd ends (by decide)
  have cut := rdropWhile_append (t := tail) kept
  simp only [List.append_assoc, List.cons_append, List.nil_append] at cut
  refine ⟨?_, parts.schemeChars, parts.schemeShort, parts.isAuthority, parts.authorityChars, ?_⟩
  · rw [parts.whole, cut]
    simp
  · intro c first
    cases left : tail.rdropWhile (· = '/') with
    | nil =>
      rw [left] at first
      cases first
      rfl
    | cons d rest =>
      rw [left] at first
      cases first
      obtain ⟨dropped, whole⟩ := List.rdropWhile_prefix (· = '/') tail
      rw [left] at whole
      exact parts.tailHead _ (by rw [← whole]; rfl)

theorem Parts.mem_iff (parts : Parts text scheme authority tail) : '#' ∈ text ↔ '#' ∈ tail := by
  constructor
  · intro member
    rw [parts.whole] at member
    simp only [List.mem_append, List.mem_cons] at member
    rcases member with inside | same | same | same | inside | inside
    · exact absurd (parts.schemeChars _ inside) (by decide)
    · cases same
    · cases same
    · cases same
    · exact absurd (parts.authorityChars _ inside) (by decide)
    · exact inside
  · intro member
    rw [parts.whole]
    simp [member]

theorem of_splitQuery_none {path : List Char} (cut : splitQuery tail = some (path, none)) :
    path = tail.takeWhile (· ≠ '#') ∧ path.all isPathChar = true := by
  have whole := List.prefix_iff_eq_append.mp
    (List.takeWhile_prefix (· ≠ '?') (l := tail.takeWhile (· ≠ '#')))
  unfold splitQuery at cut
  simp only at cut
  split at cut
  next good =>
    rw [Option.some.injEq, Prod.mk.injEq] at cut
    obtain ⟨rfl, noQuery⟩ := cut
    rw [Bool.and_eq_true] at good
    refine ⟨?_, good.1⟩
    generalize List.drop _ _ = rest at whole noQuery
    cases rest with
    | nil => simpa using whole
    | cons c rest => cases noQuery
  next => cases cut

theorem path_rooted {text : String} {uri : Uri} (read : parse text = .ok uri)
    (schemed : uri.scheme ≠ none) (noQuery : uri.query = none) :
    uri.path.toList.all isPathChar = true ∧ ∀ c ∈ uri.path.toList.head?, c = '/' := by
  obtain ⟨scheme, authority, tail, path, query, parts, cut, rfl⟩ := parts_of_parse read schemed
  have none : query = none := by simpa [ofParts] using noQuery
  subst none
  obtain ⟨start, plain⟩ := of_splitQuery_none cut
  simp only [ofParts, String.toList_ofList]
  refine ⟨plain, ?_⟩
  intro c first
  have present : c ∈ path := List.mem_of_mem_head? first
  have kept : isPathChar c = true := List.all_eq_true.mp plain c present
  have begins : endsAuthority c = true := by
    apply parts.tailHead
    cases tail with
    | nil => simp [start] at first
    | cons d rest =>
      by_cases fragment : d = '#'
      · simp [start, fragment] at first
      · simpa [start, fragment] using first
  simp only [endsAuthority, Bool.or_eq_true, decide_eq_true_eq] at begins
  rcases begins with (same | same) | same
  · exact same
  · rw [same] at kept
    exact absurd kept (by decide)
  · rw [same] at kept
    exact absurd kept (by decide)

theorem splitQuery_path {path rest : List Char} (noFragment : '#' ∉ path) (noQuery : '?' ∉ path)
    (fragment : ∀ c ∈ rest.head?, c = '#') :
    splitQuery (path ++ rest) = if path.all isPathChar then some (path, none) else none := by
  have first : (path ++ rest).takeWhile (· ≠ '#') = path := by
    apply takeWhile_append_boundary
    · intro c member
      exact decide_eq_true fun same => noFragment (same ▸ member)
    · intro c start
      simp [fragment c start]
  have second : path.takeWhile (· ≠ '?') = path := by
    rw [List.takeWhile_eq_self_iff]
    intro c member
    exact decide_eq_true fun same => noQuery (same ▸ member)
  unfold splitQuery
  simp only [first, second, List.drop_length, List.tail?_nil, Option.all_none, Bool.and_true]

theorem splitQuery_query {path query : List Char} (noFragment : '#' ∉ path) (noQuery : '?' ∉ path)
    (whole : '#' ∉ query) :
    splitQuery (path ++ '?' :: query) =
      if path.all isPathChar && query.all isQueryChar then some (path, some query) else none := by
  have first : (path ++ '?' :: query).takeWhile (· ≠ '#') = path ++ '?' :: query := by
    rw [List.takeWhile_eq_self_iff]
    intro c member
    refine decide_eq_true fun same => ?_
    subst same
    rcases List.mem_append.mp member with inside | inside
    · exact noFragment inside
    · exact whole (by simpa using inside)
  have second : (path ++ '?' :: query).takeWhile (· ≠ '?') = path := by
    apply takeWhile_append_boundary
    · intro c member
      exact decide_eq_true fun same => noQuery (same ▸ member)
    · intro c start
      cases start
      rfl
  unfold splitQuery
  simp only [first, second, List.drop_left, List.tail?_cons, Option.all_some]

end Uri

end SupervisorApi
