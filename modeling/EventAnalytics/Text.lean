import Mathlib.Data.String.Basic

/-! Texts as PostgreSQL holds them, and `str.lower`. -/
namespace EventAnalytics

/-- Without a NUL, which no text of PostgreSQL holds. -/
def isText (s : String) : Bool := s.toList.all fun c => c ≠ '\x00'

theorem isText_append {a b : String} : isText (a ++ b) = (isText a && isText b) := by
  simp [isText]

/-- `str.lower`. Texts of which it makes the same are spellings of one another. -/
structure Lowercase where
  lower : String → String
  lower_lower : ∀ s, lower (lower s) = lower s
  lower_text : ∀ s, isText s = true → isText (lower s) = true

/-- The properties `Cased` and `Case_Ignorable` of characters, which tell where a word ends. -/
structure Casing where
  cased : Char → Bool
  caseIgnorable : Char → Bool

/-- Every `step`-th code point from `first` to `last`, and what `first` becomes. -/
structure LowerRange where
  first : Nat
  last : Nat
  step : Nat
  target : Nat

namespace LowerRange

def contains (r : LowerRange) (n : Nat) : Bool :=
  r.first ≤ n && n ≤ r.last && (n - r.first) % r.step == 0

def shift (r : LowerRange) (n : Nat) : Nat := r.target + (n - r.first)

/-- What `r` leads to is not in `r'`. -/
def apart (r r' : LowerRange) : Bool :=
  Nat.blt r'.last r.target || Nat.blt (r.shift r.last) r'.first ||
    (Nat.beq r.step 2 && Nat.beq r'.step 2 && Nat.beq ((r.target + r'.first) % 2) 1)

def valid (r : LowerRange) : Bool :=
  Nat.blt 0 r.target && (Nat.blt (r.shift r.last) 0xd800 ||
    (Nat.blt 0xdfff r.target && Nat.blt (r.shift r.last) 0x110000))

theorem contains_iff {r : LowerRange} {n : Nat} :
    r.contains n = true ↔ r.first ≤ n ∧ n ≤ r.last ∧ (n - r.first) % r.step = 0 := by
  simp [contains, and_assoc]

theorem not_contains_shift {r r' : LowerRange} {n : Nat} (h : r.apart r' = true)
    (hn : r.contains n = true) : r'.contains (r.shift n) = false := by
  obtain ⟨hfirst, hlast, hstep⟩ := contains_iff.mp hn
  simp only [apart, shift, Bool.or_eq_true, Bool.and_eq_true, Nat.blt_eq, Nat.beq_eq] at h
  rw [← Bool.not_eq_true, contains_iff, shift]
  rintro ⟨hfirst', hlast', hstep'⟩
  rcases h with (h | h) | ⟨⟨htwo, htwo'⟩, hodd⟩
  · omega
  · omega
  · rw [htwo] at hstep
    rw [htwo'] at hstep'
    omega

theorem isValidChar_shift {r : LowerRange} {n : Nat} (h : r.valid = true)
    (hn : r.contains n = true) : (r.shift n).isValidChar ∧ r.shift n ≠ 0 := by
  obtain ⟨hfirst, hlast, -⟩ := contains_iff.mp hn
  simp only [valid, shift, Bool.and_eq_true, Bool.or_eq_true, Nat.blt_eq] at h
  unfold Nat.isValidChar shift
  omega

end LowerRange

/-- The simple lower case of Unicode 15.0. -/
def lowerRanges : List LowerRange :=
  [⟨65, 90, 1, 97⟩, ⟨192, 214, 1, 224⟩, ⟨216, 222, 1, 248⟩, ⟨256, 302, 2, 257⟩,
   ⟨304, 304, 2, 105⟩, ⟨306, 310, 2, 307⟩, ⟨313, 327, 2, 314⟩, ⟨330, 374, 2, 331⟩,
   ⟨376, 376, 2, 255⟩, ⟨377, 381, 2, 378⟩, ⟨385, 385, 2, 595⟩, ⟨386, 388, 2, 387⟩,
   ⟨390, 390, 2, 596⟩, ⟨391, 391, 2, 392⟩, ⟨393, 394, 1, 598⟩, ⟨395, 395, 2, 396⟩,
   ⟨398, 398, 2, 477⟩, ⟨399, 399, 2, 601⟩, ⟨400, 400, 2, 603⟩, ⟨401, 401, 2, 402⟩,
   ⟨403, 403, 2, 608⟩, ⟨404, 404, 2, 611⟩, ⟨406, 406, 2, 617⟩, ⟨407, 407, 2, 616⟩,
   ⟨408, 408, 2, 409⟩, ⟨412, 412, 2, 623⟩, ⟨413, 413, 2, 626⟩, ⟨415, 415, 2, 629⟩,
   ⟨416, 420, 2, 417⟩, ⟨422, 422, 2, 640⟩, ⟨423, 423, 2, 424⟩, ⟨425, 425, 2, 643⟩,
   ⟨428, 428, 2, 429⟩, ⟨430, 430, 2, 648⟩, ⟨431, 431, 2, 432⟩, ⟨433, 434, 1, 650⟩,
   ⟨435, 437, 2, 436⟩, ⟨439, 439, 2, 658⟩, ⟨440, 440, 2, 441⟩, ⟨444, 444, 2, 445⟩,
   ⟨452, 452, 2, 454⟩, ⟨453, 453, 2, 454⟩, ⟨455, 455, 2, 457⟩, ⟨456, 456, 2, 457⟩,
   ⟨458, 458, 2, 460⟩, ⟨459, 475, 2, 460⟩, ⟨478, 494, 2, 479⟩, ⟨497, 497, 2, 499⟩,
   ⟨498, 500, 2, 499⟩, ⟨502, 502, 2, 405⟩, ⟨503, 503, 2, 447⟩, ⟨504, 542, 2, 505⟩,
   ⟨544, 544, 2, 414⟩, ⟨546, 562, 2, 547⟩, ⟨570, 570, 2, 11365⟩, ⟨571, 571, 2, 572⟩,
   ⟨573, 573, 2, 410⟩, ⟨574, 574, 2, 11366⟩, ⟨577, 577, 2, 578⟩, ⟨579, 579, 2, 384⟩,
   ⟨580, 580, 2, 649⟩, ⟨581, 581, 2, 652⟩, ⟨582, 590, 2, 583⟩, ⟨880, 882, 2, 881⟩,
   ⟨886, 886, 2, 887⟩, ⟨895, 895, 2, 1011⟩, ⟨902, 902, 2, 940⟩, ⟨904, 906, 1, 941⟩,
   ⟨908, 908, 2, 972⟩, ⟨910, 911, 1, 973⟩, ⟨913, 929, 1, 945⟩, ⟨931, 939, 1, 963⟩,
   ⟨975, 975, 2, 983⟩, ⟨984, 1006, 2, 985⟩, ⟨1012, 1012, 2, 952⟩, ⟨1015, 1015, 2, 1016⟩,
   ⟨1017, 1017, 2, 1010⟩, ⟨1018, 1018, 2, 1019⟩, ⟨1021, 1023, 1, 891⟩, ⟨1024, 1039, 1, 1104⟩,
   ⟨1040, 1071, 1, 1072⟩, ⟨1120, 1152, 2, 1121⟩, ⟨1162, 1214, 2, 1163⟩, ⟨1216, 1216, 2, 1231⟩,
   ⟨1217, 1229, 2, 1218⟩, ⟨1232, 1326, 2, 1233⟩, ⟨1329, 1366, 1, 1377⟩, ⟨4256, 4293, 1, 11520⟩,
   ⟨4295, 4295, 2, 11559⟩, ⟨4301, 4301, 2, 11565⟩, ⟨5024, 5103, 1, 43888⟩, ⟨5104, 5109, 1, 5112⟩,
   ⟨7312, 7354, 1, 4304⟩, ⟨7357, 7359, 1, 4349⟩, ⟨7680, 7828, 2, 7681⟩, ⟨7838, 7838, 2, 223⟩,
   ⟨7840, 7934, 2, 7841⟩, ⟨7944, 7951, 1, 7936⟩, ⟨7960, 7965, 1, 7952⟩, ⟨7976, 7983, 1, 7968⟩,
   ⟨7992, 7999, 1, 7984⟩, ⟨8008, 8013, 1, 8000⟩, ⟨8025, 8031, 2, 8017⟩, ⟨8040, 8047, 1, 8032⟩,
   ⟨8072, 8079, 1, 8064⟩, ⟨8088, 8095, 1, 8080⟩, ⟨8104, 8111, 1, 8096⟩, ⟨8120, 8121, 1, 8112⟩,
   ⟨8122, 8123, 1, 8048⟩, ⟨8124, 8124, 2, 8115⟩, ⟨8136, 8139, 1, 8050⟩, ⟨8140, 8140, 2, 8131⟩,
   ⟨8152, 8153, 1, 8144⟩, ⟨8154, 8155, 1, 8054⟩, ⟨8168, 8169, 1, 8160⟩, ⟨8170, 8171, 1, 8058⟩,
   ⟨8172, 8172, 2, 8165⟩, ⟨8184, 8185, 1, 8056⟩, ⟨8186, 8187, 1, 8060⟩, ⟨8188, 8188, 2, 8179⟩,
   ⟨8486, 8486, 2, 969⟩, ⟨8490, 8490, 2, 107⟩, ⟨8491, 8491, 2, 229⟩, ⟨8498, 8498, 2, 8526⟩,
   ⟨8544, 8559, 1, 8560⟩, ⟨8579, 8579, 2, 8580⟩, ⟨9398, 9423, 1, 9424⟩, ⟨11264, 11311, 1, 11312⟩,
   ⟨11360, 11360, 2, 11361⟩, ⟨11362, 11362, 2, 619⟩, ⟨11363, 11363, 2, 7549⟩,
   ⟨11364, 11364, 2, 637⟩, ⟨11367, 11371, 2, 11368⟩, ⟨11373, 11373, 2, 593⟩,
   ⟨11374, 11374, 2, 625⟩, ⟨11375, 11375, 2, 592⟩, ⟨11376, 11376, 2, 594⟩,
   ⟨11378, 11378, 2, 11379⟩, ⟨11381, 11381, 2, 11382⟩, ⟨11390, 11391, 1, 575⟩,
   ⟨11392, 11490, 2, 11393⟩, ⟨11499, 11501, 2, 11500⟩, ⟨11506, 11506, 2, 11507⟩,
   ⟨42560, 42604, 2, 42561⟩, ⟨42624, 42650, 2, 42625⟩, ⟨42786, 42798, 2, 42787⟩,
   ⟨42802, 42862, 2, 42803⟩, ⟨42873, 42875, 2, 42874⟩, ⟨42877, 42877, 2, 7545⟩,
   ⟨42878, 42886, 2, 42879⟩, ⟨42891, 42891, 2, 42892⟩, ⟨42893, 42893, 2, 613⟩,
   ⟨42896, 42898, 2, 42897⟩, ⟨42902, 42920, 2, 42903⟩, ⟨42922, 42922, 2, 614⟩,
   ⟨42923, 42923, 2, 604⟩, ⟨42924, 42924, 2, 609⟩, ⟨42925, 42925, 2, 620⟩, ⟨42926, 42926, 2, 618⟩,
   ⟨42928, 42928, 2, 670⟩, ⟨42929, 42929, 2, 647⟩, ⟨42930, 42930, 2, 669⟩,
   ⟨42931, 42931, 2, 43859⟩, ⟨42932, 42946, 2, 42933⟩, ⟨42948, 42948, 2, 42900⟩,
   ⟨42949, 42949, 2, 642⟩, ⟨42950, 42950, 2, 7566⟩, ⟨42951, 42953, 2, 42952⟩,
   ⟨42960, 42960, 2, 42961⟩, ⟨42966, 42968, 2, 42967⟩, ⟨42997, 42997, 2, 42998⟩,
   ⟨65313, 65338, 1, 65345⟩, ⟨66560, 66599, 1, 66600⟩, ⟨66736, 66771, 1, 66776⟩,
   ⟨66928, 66938, 1, 66967⟩, ⟨66940, 66954, 1, 66979⟩, ⟨66956, 66962, 1, 66995⟩,
   ⟨66964, 66965, 1, 67003⟩, ⟨68736, 68786, 1, 68800⟩, ⟨71840, 71871, 1, 71872⟩,
   ⟨93760, 93791, 1, 93792⟩, ⟨125184, 125217, 1, 125218⟩]

theorem lowerRanges_apart : ∀ r ∈ lowerRanges, ∀ r' ∈ lowerRanges, r.apart r' = true := by
  have hall : (lowerRanges.all fun r => lowerRanges.all r.apart) = true := by decide +kernel
  exact fun r hr => List.all_eq_true.mp (List.all_eq_true.mp hall r hr)

theorem lowerRanges_valid : ∀ r ∈ lowerRanges, r.valid = true := by
  have hall : lowerRanges.all LowerRange.valid = true := by decide +kernel
  exact List.all_eq_true.mp hall

def lowerOf (n : Nat) : Nat :=
  match lowerRanges.find? fun r => r.contains n with
  | some r => r.shift n
  | none => n

/-- Whether a capital sigma between two parts of a text ends a word. The part before it is
read backwards. -/
def finalSigma (u : Casing) (before after : List Char) : Bool :=
  (before.dropWhile u.caseIgnorable).head?.any u.cased &&
    !(after.dropWhile u.caseIgnorable).head?.any u.cased

def lowerAt (u : Casing) (before : List Char) (c : Char) (after : List Char) : List Char :=
  if c = 'Σ' then [if finalSigma u before after then 'ς' else 'σ']
  else if c = 'İ' then ['i', '\u0307']
  else [Char.ofNat (lowerOf c.toNat)]

def lowerFrom (u : Casing) : List Char → List Char → List Char
  | _, [] => []
  | before, c :: after => lowerAt u before c after ++ lowerFrom u (c :: before) after

def Lowered (c : Char) : Prop := ∀ r ∈ lowerRanges, r.contains c.toNat = false

instance (c : Char) : Decidable (Lowered c) :=
  decidable_of_iff ((lowerRanges.all fun r => !r.contains c.toNat) = true) (by simp [Lowered])

theorem Lowered.lowerOf {c : Char} (h : Lowered c) : lowerOf c.toNat = c.toNat := by
  have hnone : lowerRanges.find? (fun r => r.contains c.toNat) = none := by
    rw [List.find?_eq_none]
    exact fun r hr => by simp [h r hr]
  rw [EventAnalytics.lowerOf, hnone]

theorem Lowered.lowerAt {u : Casing} {before after : List Char} {c : Char} (h : Lowered c) :
    lowerAt u before c after = [c] := by
  have hsigma : c ≠ 'Σ' := by
    rintro rfl
    exact absurd h (by decide +kernel)
  have hdotted : c ≠ 'İ' := by
    rintro rfl
    exact absurd h (by decide +kernel)
  rw [EventAnalytics.lowerAt, if_neg hsigma, if_neg hdotted, h.lowerOf, Char.ofNat_toNat]

theorem lowered_ofNat_lowerOf (c : Char) :
    Lowered (Char.ofNat (lowerOf c.toNat)) ∧
      (c ≠ '\x00' → Char.ofNat (lowerOf c.toNat) ≠ '\x00') := by
  cases hfind : lowerRanges.find? fun r => r.contains c.toNat with
  | none =>
      rw [lowerOf, hfind]
      dsimp only
      rw [Char.ofNat_toNat]
      exact ⟨fun r hr => by simpa using List.find?_eq_none.mp hfind r hr, id⟩
  | some r =>
      have hr := List.mem_of_find?_eq_some hfind
      have hcontains : r.contains c.toNat = true := by simpa using List.find?_some hfind
      obtain ⟨hvalid, hzero⟩ := LowerRange.isValidChar_shift (lowerRanges_valid r hr) hcontains
      have hcode : (Char.ofNat (r.shift c.toNat)).toNat = r.shift c.toNat := by
        rw [Char.ofNat, dif_pos hvalid]
        rfl
      rw [lowerOf, hfind]
      refine ⟨fun r' hr' => ?_, fun _ hnul => hzero ?_⟩
      · rw [hcode]
        exact LowerRange.not_contains_shift (lowerRanges_apart r hr r' hr') hcontains
      · rw [← hcode, hnul]
        rfl

theorem lowered_sigmas (final : Bool) : Lowered (if final then 'ς' else 'σ') := by
  cases final <;> decide +kernel

theorem lowered_dotted : Lowered 'i' ∧ Lowered '\u0307' := by decide +kernel

theorem lowerAt_lowered (u : Casing) (before : List Char) (c : Char) (after : List Char) :
    ∀ d ∈ lowerAt u before c after, Lowered d ∧ (c ≠ '\x00' → d ≠ '\x00') := by
  intro d hd
  unfold lowerAt at hd
  split at hd
  · cases List.mem_singleton.mp hd
    refine ⟨lowered_sigmas _, fun _ => ?_⟩
    split <;> decide
  · split at hd
    · rcases List.mem_cons.mp hd with rfl | hd
      · exact ⟨lowered_dotted.1, fun _ => by decide⟩
      · cases List.mem_singleton.mp hd
        exact ⟨lowered_dotted.2, fun _ => by decide⟩
    · cases List.mem_singleton.mp hd
      exact lowered_ofNat_lowerOf c

theorem lowerFrom_lowered (u : Casing) (before cs : List Char) :
    ∀ d ∈ lowerFrom u before cs, Lowered d ∧ ((∀ c ∈ cs, c ≠ '\x00') → d ≠ '\x00') := by
  induction cs generalizing before with
  | nil => simp [lowerFrom]
  | cons c cs ih =>
      intro d hd
      rcases List.mem_append.mp hd with hd | hd
      · obtain ⟨hlowered, htext⟩ := lowerAt_lowered u before c cs d hd
        exact ⟨hlowered, fun h => htext (h c List.mem_cons_self)⟩
      · obtain ⟨hlowered, htext⟩ := ih (c :: before) d hd
        exact ⟨hlowered, fun h => htext fun c' hc' => h c' (List.mem_cons_of_mem c hc')⟩

theorem lowerFrom_of_lowered (u : Casing) (before : List Char) {cs : List Char}
    (h : ∀ c ∈ cs, Lowered c) : lowerFrom u before cs = cs := by
  induction cs generalizing before with
  | nil => rfl
  | cons c cs ih =>
      rw [lowerFrom, ih _ fun d hd => h d (List.mem_cons_of_mem c hd),
        (h c List.mem_cons_self).lowerAt]
      rfl

/-- `str.lower` of Python 3.12. -/
def strLower (u : Casing) : Lowercase where
  lower s := String.ofList (lowerFrom u [] s.toList)
  lower_lower s := by
    rw [String.toList_ofList]
    congr 1
    exact lowerFrom_of_lowered u [] fun c hc => (lowerFrom_lowered u [] s.toList c hc).1
  lower_text s h := by
    simp only [isText, List.all_eq_true, decide_eq_true_eq] at h ⊢
    rw [String.toList_ofList]
    exact fun c hc => (lowerFrom_lowered u [] s.toList c hc).2 h

example : (strLower ⟨fun c => c ≠ '@', fun c => c = '.'⟩).lower "ΟΔΥΣΣΕΥΣ.@İ.ORG" =
    "οδυσσευς.@i\u0307.org" := by
  decide +kernel

end EventAnalytics
