import EventAnalytics.Library.Replace

/-! `app/core/middleware.py`: the path that the request metrics are labelled with. -/
namespace EventAnalytics.Core

open Library

/-- `[0-9a-fA-F]`. -/
def isHex (c : Char) : Bool :=
  ('0' ≤ c && c ≤ '9') || ('a' ≤ c && c ≤ 'f') || ('A' ≤ c && c ≤ 'F')

/-- The zeros of the decimal digits of Unicode 15; the other nine follow each. -/
def decimalZeros : List Nat :=
  [0x30, 0x660, 0x6F0, 0x7C0, 0x966, 0x9E6, 0xA66, 0xAE6, 0xB66, 0xBE6, 0xC66, 0xCE6, 0xD66,
   0xDE6, 0xE50, 0xED0, 0xF20, 0x1040, 0x1090, 0x17E0, 0x1810, 0x1946, 0x19D0, 0x1A80, 0x1A90,
   0x1B50, 0x1BB0, 0x1C40, 0x1C50, 0xA620, 0xA8D0, 0xA900, 0xA9D0, 0xA9F0, 0xAA50, 0xABF0,
   0xFF10, 0x104A0, 0x10D30, 0x11066, 0x110F0, 0x11136, 0x111D0, 0x112F0, 0x11450, 0x114D0,
   0x11650, 0x116C0, 0x11730, 0x118E0, 0x11950, 0x11C50, 0x11D50, 0x11DA0, 0x11F50, 0x16A60,
   0x16AC0, 0x16B50, 0x1D7CE, 0x1D7D8, 0x1D7E2, 0x1D7EC, 0x1D7F6, 0x1E140, 0x1E2F0, 0x1E4F0,
   0x1E950, 0x1FBF0]

/-- `\d` in a pattern on `str`. -/
def isDecimal (c : Char) : Bool :=
  decimalZeros.any fun first => first ≤ c.toNat && c.toNat < first + 10

/-- `_UUID_RE`. -/
def uuidRe : Pattern Char where
  classes :=
    List.replicate 8 isHex ++ (· == '-') :: (List.replicate 4 isHex ++
      (· == '-') :: (List.replicate 4 isHex ++ (· == '-') :: (List.replicate 4 isHex ++
        (· == '-') :: List.replicate 12 isHex)))
  more := fun _ => false
  nonempty := List.cons_ne_nil _ _

/-- `_NUM_RE`. -/
def numRe : Pattern Char where
  classes := [(· == '/'), isDecimal]
  more := isDecimal
  nonempty := List.cons_ne_nil _ _

/-- `pattern.sub(repl, string)`, for a `repl` without backslashes. -/
def sub (pattern : Pattern Char) (repl string : String) : String :=
  String.ofList (pattern.replace repl.toList string.toList)

/-- `normalize_path`. -/
def normalizePath (path : String) : String :=
  let path := sub uuidRe "{id}" path
  let path := sub numRe "/{id}" path
  if path.length > 120 then String.ofList (path.toList.take 120) else path

@[simp] theorem toList_sub {pattern : Pattern Char} {repl string : String} :
    (sub pattern repl string).toList = pattern.replace repl.toList string.toList :=
  String.toList_ofList

theorem toList_normalizePath {path : String} :
    (normalizePath path).toList =
      (numRe.replace "/{id}".toList (uuidRe.replace "{id}".toList path.toList)).take 120 := by
  simp only [normalizePath]
  split
  · rw [String.toList_ofList, toList_sub, toList_sub]
  · rename_i hshort
    rw [← String.length_toList, toList_sub, toList_sub] at hshort
    rw [toList_sub, toList_sub, List.take_of_length_le (by omega)]

/-- Groups of 8, 4, 4, 4 and 12 hexadecimal digits, with hyphens between them. -/
def Hyphenated (u : List Char) : Prop :=
  ∃ groups : List (List Char), groups.map List.length = [8, 4, 4, 4, 12] ∧
    (∀ group ∈ groups, ∀ c ∈ group, isHex c = true) ∧ u = ['-'].intercalate groups

theorem intercalate_groups {a b c d e : List Char} :
    ['-'].intercalate [a, b, c, d, e] =
      a ++ '-' :: (b ++ '-' :: (c ++ '-' :: (d ++ '-' :: e))) := by
  simp [List.intercalate, List.intersperse]

theorem hyphenated_iff {u : List Char} : Hyphenated u ↔ Spells uuidRe.classes u := by
  simp only [uuidRe, spells_append, spells_cons, spells_replicate, beq_iff_eq]
  constructor
  · rintro ⟨groups, hlengths, hhex, rfl⟩
    simp only [List.map_eq_cons_iff, List.map_eq_nil_iff] at hlengths
    obtain ⟨a, _, rfl, ha, b, _, rfl, hb, c, _, rfl, hc, d, _, rfl, hd, e, _, rfl, he, rfl⟩ :=
      hlengths
    simp only [List.forall_mem_cons] at hhex
    obtain ⟨ha', hb', hc', hd', he', -⟩ := hhex
    rw [intercalate_groups]
    exact ⟨a, _, rfl, ⟨ha, ha'⟩, '-', _, rfl, rfl, b, _, rfl, ⟨hb, hb'⟩, '-', _, rfl, rfl,
      c, _, rfl, ⟨hc, hc'⟩, '-', _, rfl, rfl, d, _, rfl, ⟨hd, hd'⟩, '-', e, rfl, rfl, he, he'⟩
  · rintro ⟨a, _, rfl, ⟨ha, ha'⟩, _, _, rfl, rfl, b, _, rfl, ⟨hb, hb'⟩, _, _, rfl, rfl,
      c, _, rfl, ⟨hc, hc'⟩, _, _, rfl, rfl, d, _, rfl, ⟨hd, hd'⟩, _, e, rfl, rfl, he, he'⟩
    refine ⟨[a, b, c, d, e], ?_, ?_, intercalate_groups.symm⟩
    · simp only [List.map_cons, List.map_nil, ha, hb, hc, hd, he]
    · simp only [List.forall_mem_cons]
      exact ⟨ha', hb', hc', hd', he', by simp⟩

theorem uuid_foreign : Pattern.Foreign uuidRe.classes "{id}".toList where
  head := ⟨'{', ['i', 'd', '}'], by decide, by decide⟩
  suffixes := by decide

theorem uuid_foreign_number : Pattern.Foreign uuidRe.classes "/{id}".toList where
  head := ⟨'/', "{id}".toList, by decide, by decide⟩
  suffixes := by decide

theorem number_foreign : Pattern.Foreign numRe.classes "/{id}".toList where
  head := ⟨'/', "{id}".toList, by decide, by decide⟩
  suffixes := by decide

theorem occurs_uuid {s : List Char} :
    Occurs uuidRe.classes s ↔ ∃ u, Hyphenated u ∧ u <:+: s := by
  simp only [occurs_iff, hyphenated_iff]

theorem occurs_number {s : List Char} :
    Occurs numRe.classes s ↔ ∃ d, isDecimal d = true ∧ ['/', d] <:+: s := by
  simp only [occurs_iff, numRe, spells_cons, spells_nil, beq_iff_eq]
  constructor
  · rintro ⟨_, ⟨_, _, rfl, rfl, d, _, rfl, hd, rfl⟩, hs⟩
    exact ⟨d, hd, hs⟩
  · rintro ⟨d, hd, hs⟩
    exact ⟨['/', d], ⟨'/', [d], rfl, rfl, d, [], rfl, hd, rfl⟩, hs⟩

theorem length_normalizePath (path : String) : (normalizePath path).length ≤ 120 := by
  rw [← String.length_toList, toList_normalizePath]
  exact List.length_take_le _ _

/-- The second substitution and the cut make no UUID of what the first one left. -/
theorem no_uuid_normalizePath (path : String) :
    ¬ Occurs uuidRe.classes (normalizePath path).toList := by
  rw [toList_normalizePath]
  intro h
  have hnumbers := Pattern.occurs_of_replace uuid_foreign_number uuidRe.nonempty h.of_take
  exact Pattern.not_occurs_replace uuid_foreign hnumbers

theorem no_number_normalizePath (path : String) :
    ¬ Occurs numRe.classes (normalizePath path).toList := by
  rw [toList_normalizePath]
  intro h
  exact Pattern.not_occurs_replace number_foreign h.of_take

theorem normalizePath_eq_self {path : String} (hlength : path.length ≤ 120)
    (huuid : ¬ Occurs uuidRe.classes path.toList) (hnumber : ¬ Occurs numRe.classes path.toList) :
    normalizePath path = path := by
  rw [← String.length_toList] at hlength
  apply String.toList_inj.mp
  rw [toList_normalizePath, Pattern.replace_eq_self huuid, Pattern.replace_eq_self hnumber,
    List.take_of_length_le hlength]

theorem normalizePath_stable (path : String) :
    normalizePath (normalizePath path) = normalizePath path :=
  normalizePath_eq_self (length_normalizePath path) (no_uuid_normalizePath path)
    (no_number_normalizePath path)

/-- No label is longer than 120 characters or holds an identifier, and each is
its own label. -/
theorem normalizePath_clean (path : String) :
    (normalizePath path).length ≤ 120 ∧
      (¬ ∃ u, Hyphenated u ∧ u <:+: (normalizePath path).toList) ∧
      (¬ ∃ d, isDecimal d = true ∧ ['/', d] <:+: (normalizePath path).toList) ∧
      normalizePath (normalizePath path) = normalizePath path := by
  rw [← occurs_uuid, ← occurs_number]
  exact ⟨length_normalizePath path, no_uuid_normalizePath path, no_number_normalizePath path,
    normalizePath_stable path⟩

example : normalizePath "/api/v1/events/64860119-a957-4bff-917c-2746444017ec" =
      "/api/v1/events/{id}" ∧
    normalizePath "/api/v1/admin/users/42" = "/api/v1/admin/users/{id}" := by decide

end EventAnalytics.Core
