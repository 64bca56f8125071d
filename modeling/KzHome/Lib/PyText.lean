import Mathlib.Data.List.Basic
import Mathlib.Data.List.Induction
import Mathlib.Data.List.TakeWhile
import Mathlib.Tactic.IntervalCases

/-!
# KzHome.Lib.PyText

Texts as Python's `str`, `int` and `uuid` treat them.

`int(text, 16)` takes more than hexadecimal digits: white space around them, a sign, a `0x`,
underscores between digits, and the decimal digits of every script. `UUID` reads its text with it,
after it has taken away what it knows of URNs, braces and hyphens.

**A text is the rendering of the UUID that it stands for if and only if it is canonical**
(`uuid_renders_iff`): 8-4-4-4-12 lower-case hexadecimal digits.
-/

namespace PyText

/-! ### Characters -/

/-- `str.isspace` of one character. -/
def isSpace (c : Char) : Bool :=
  let n := c.toNat
  (9 ≤ n && n ≤ 13) || (28 ≤ n && n ≤ 32) || n = 133 || n = 160 || n = 5760 ||
    (8192 ≤ n && n ≤ 8202) || n = 8232 || n = 8233 || n = 8239 || n = 8287 || n = 12288

/-- The decimal digits zero, one for each script. -/
def zeros : List Nat :=
  [0x30, 0x660, 0x6F0, 0x7C0, 0x966, 0x9E6, 0xA66, 0xAE6, 0xB66, 0xBE6, 0xC66, 0xCE6, 0xD66,
   0xDE6, 0xE50, 0xED0, 0xF20, 0x1040, 0x1090, 0x17E0, 0x1810, 0x1946, 0x19D0, 0x1A80, 0x1A90,
   0x1B50, 0x1BB0, 0x1C40, 0x1C50, 0xA620, 0xA8D0, 0xA900, 0xA9D0, 0xA9F0, 0xAA50, 0xABF0,
   0xFF10, 0x104A0, 0x10D30, 0x11066, 0x110F0, 0x11136, 0x111D0, 0x112F0, 0x11450, 0x114D0,
   0x11650, 0x116C0, 0x11730, 0x118E0, 0x11950, 0x11C50, 0x11D50, 0x11DA0, 0x16A60, 0x16AC0,
   0x16B50, 0x1D7CE, 0x1D7D8, 0x1D7E2, 0x1D7EC, 0x1D7F6, 0x1E140, 0x1E2F0, 0x1E950, 0x1FBF0]

/-- `unicodedata.decimal` -/
def decimal? (c : Char) : Option Nat :=
  (zeros.find? fun z => z ≤ c.toNat && c.toNat < z + 10).map fun z => c.toNat - z

/-- The value of a hexadecimal digit. -/
def hexDigit? (c : Char) : Option Nat :=
  if '0' ≤ c && c ≤ '9' then some (c.toNat - '0'.toNat)
  else if 'a' ≤ c && c ≤ 'f' then some (c.toNat - 'a'.toNat + 10)
  else if 'A' ≤ c && c ≤ 'F' then some (c.toNat - 'A'.toNat + 10)
  else none

/-- A lower-case hexadecimal digit. -/
def isLowerHex (c : Char) : Bool := ('0' ≤ c && c ≤ '9') || ('a' ≤ c && c ≤ 'f')

/-- `'%x' % n` of one digit. -/
def lowerHex (n : Nat) : Char := if n < 10 then Char.ofNat (48 + n) else Char.ofNat (87 + n)

/-! ### Texts -/

/-- `text.strip(...)` of the characters that `p` takes. -/
def strip (p : Char → Bool) (text : List Char) : List Char :=
  ((text.dropWhile p).reverse.dropWhile p).reverse

/-- `text.replace(old, '')`; `n` characters of an occurrence are still to go. -/
def erase (old : List Char) : Nat → List Char → List Char
  | _, [] => []
  | n + 1, _ :: text => erase old n text
  | 0, c :: text =>
    if old.isPrefixOf (c :: text) then erase old (old.length - 1) text
    else c :: erase old 0 text

theorem strip_none {p : Char → Bool} {text : List Char} (h : ∀ c ∈ text, p c = false) :
    strip p text = text := by
  have hdrop : ∀ l : List Char, (∀ c ∈ l, p c = false) → l.dropWhile p = l := by
    intro l hl
    cases l with
    | nil => rfl
    | cons c l => exact List.dropWhile_cons_of_neg (by simp [hl c List.mem_cons_self])
  rw [strip, hdrop text h, hdrop _ fun c hc => h c (List.mem_reverse.mp hc), List.reverse_reverse]

/-- A text without one of its characters has no occurrence of `old`. -/
theorem erase_none (old : List Char) {d : Char} (hd : d ∈ old) {text : List Char}
    (h : d ∉ text) : erase old 0 text = text := by
  induction text with
  | nil => rfl
  | cons c text ih =>
      have hpre : ¬ old.isPrefixOf (c :: text) = true := by
        intro hpre
        exact h ((List.isPrefixOf_iff_prefix.mp hpre).subset hd)
      rw [erase, if_neg hpre, ih fun hmem => h (List.mem_cons_of_mem c hmem)]

/-! ### `int(text, 16)` -/

/-- The ASCII character that `int` takes a character for. -/
def toAscii (c : Char) : Char :=
  if c.toNat < 128 then c
  else if isSpace c then ' '
  else match decimal? c with
    | some d => lowerHex d
    | none => '?'

/-- White space to C. -/
def isAsciiSpace (c : Char) : Bool := (9 ≤ c.toNat && c.toNat ≤ 13) || c.toNat = 32

def isHex (c : Char) : Bool := (hexDigit? c).isSome

/-- The value of hexadecimal digits; other characters do not count. -/
def ofHex (digits : List Char) : Nat :=
  digits.foldl (fun n c => match hexDigit? c with | some d => 16 * n + d | none => n) 0

/-- What follows an optional `0x`, and an underscore after it. -/
def afterPrefix : List Char → List Char
  | '0' :: x :: text =>
    if x = 'x' ∨ x = 'X' then
      match text with
      | '_' :: text => text
      | text => text
    else '0' :: x :: text
  | text => text

/-- Digits with single underscores between them, and white space after them. -/
def magnitude16 (text : List Char) : Option Nat :=
  let body := text.takeWhile fun c => isHex c || c = '_'
  let rest := text.dropWhile fun c => isHex c || c = '_'
  if (body.splitOn '_').all (· ≠ []) && rest.all isAsciiSpace then some (ofHex body) else none

/-- `int(text, 16)` -/
def int16 (text : List Char) : Option Int :=
  match (text.map toAscii).dropWhile isAsciiSpace with
  | '-' :: text => (magnitude16 (afterPrefix text)).map fun n => -(n : Int)
  | '+' :: text => (magnitude16 (afterPrefix text)).map fun n => (n : Int)
  | text => (magnitude16 (afterPrefix text)).map fun n => (n : Int)

/-- `'%0{width}x' % n` of a number of at most so many digits. -/
def hexPad : Nat → Nat → List Char
  | 0, _ => []
  | width + 1, n => hexPad width (n / 16) ++ [lowerHex (n % 16)]

theorem lowerHex_isLowerHex {n : Nat} (h : n < 16) : isLowerHex (lowerHex n) = true := by
  interval_cases n <;> decide

theorem hexPad_length (width n : Nat) : (hexPad width n).length = width := by
  induction width generalizing n with
  | zero => rfl
  | succ width ih => rw [hexPad, List.length_append, ih, List.length_singleton]

theorem hexPad_lower (width n : Nat) : ∀ c ∈ hexPad width n, isLowerHex c = true := by
  induction width generalizing n with
  | zero => exact fun c hc => nomatch hc
  | succ width ih =>
      intro c hc
      rw [hexPad, List.mem_append, List.mem_singleton] at hc
      rcases hc with hc | rfl
      · exact ih _ c hc
      · exact lowerHex_isLowerHex (Nat.mod_lt n (by decide))

/-- Lower-case digits, one by one: what each of them is. -/
theorem isLowerHex_cases {c : Char} (h : isLowerHex c = true) :
    ∃ d, d < 16 ∧ c = lowerHex d := by
  simp only [isLowerHex, Bool.or_eq_true, Bool.and_eq_true, decide_eq_true_eq, Char.le_def,
    UInt32.le_iff_toNat_le] at h
  have hc : Char.ofNat c.toNat = c := by simp
  have hval : c.val.toNat = c.toNat := rfl
  rcases h with ⟨hlo, hhi⟩ | ⟨hlo, hhi⟩
  · have h0 : '0'.val.toNat = 48 := rfl
    have h9 : '9'.val.toNat = 57 := rfl
    refine ⟨c.toNat - 48, by omega, ?_⟩
    rw [lowerHex, if_pos (by omega), ← hc]
    congr 1
    simp only [hc]
    omega
  · have ha : 'a'.val.toNat = 97 := rfl
    have hf : 'f'.val.toNat = 102 := rfl
    refine ⟨c.toNat - 87, by omega, ?_⟩
    rw [lowerHex, if_neg (by omega), ← hc]
    congr 1
    simp only [hc]
    omega

theorem hexDigit_lowerHex {d : Nat} (h : d < 16) : hexDigit? (lowerHex d) = some d := by
  interval_cases d <;> decide

theorem toAscii_lower {c : Char} (h : isLowerHex c = true) : toAscii c = c := by
  obtain ⟨d, hd, rfl⟩ := isLowerHex_cases h
  interval_cases d <;> decide

theorem isHex_lower {c : Char} (h : isLowerHex c = true) : isHex c = true := by
  obtain ⟨d, hd, rfl⟩ := isLowerHex_cases h
  rw [isHex, hexDigit_lowerHex hd]
  rfl

/-- A character that is no digit is none of the digits of a text. -/
theorem lower_ne {c d : Char} (hc : isLowerHex c = true) (hd : isLowerHex d = false) : c ≠ d := by
  rintro rfl
  rw [hc] at hd
  cases hd

theorem ofHex_append (ds : List Char) {d : Nat} (hd : d < 16) :
    ofHex (ds ++ [lowerHex d]) = 16 * ofHex ds + d := by
  rw [ofHex, List.foldl_append]
  simp only [List.foldl_cons, List.foldl_nil, hexDigit_lowerHex hd]
  rfl

/-- **Digits are read back as they are written**: so many lower-case digits are the rendering of
their value. -/
theorem hexPad_ofHex {ds : List Char} (h : ∀ c ∈ ds, isLowerHex c = true) :
    ofHex ds < 16 ^ ds.length ∧ hexPad ds.length (ofHex ds) = ds := by
  induction ds using List.reverseRecOn with
  | nil => exact ⟨by decide, rfl⟩
  | append_singleton ds c ih =>
      obtain ⟨hlt, hpad⟩ := ih fun e he => h e (List.mem_append_left _ he)
      obtain ⟨d, hd, rfl⟩ := isLowerHex_cases (h c (by simp))
      have hdiv : (16 * ofHex ds + d) / 16 = ofHex ds := by omega
      have hmod : (16 * ofHex ds + d) % 16 = d := by omega
      have hlen : (ds ++ [lowerHex d]).length = ds.length + 1 := by simp
      rw [ofHex_append ds hd, hlen]
      constructor
      · rw [Nat.pow_succ]
        omega
      · rw [hexPad, hdiv, hmod, hpad]

theorem dropWhile_none {p : Char → Bool} {c : Char} {text : List Char} (h : p c = false) :
    (c :: text).dropWhile p = c :: text :=
  List.dropWhile_cons_of_neg (by simp [h])

theorem magnitude16_lower {ds : List Char} (h : ∀ c ∈ ds, isLowerHex c = true) (hne : ds ≠ []) :
    magnitude16 ds = some (ofHex ds) := by
  have hall : ∀ c ∈ ds, (isHex c || c = '_') = true := by
    intro c hc
    simp [isHex_lower (h c hc)]
  have htake : (ds.takeWhile fun c => isHex c || c = '_') = ds :=
    List.takeWhile_eq_self_iff.mpr hall
  have hdrop : (ds.dropWhile fun c => isHex c || c = '_') = [] :=
    List.dropWhile_eq_nil_iff.mpr hall
  have hsplit : ds.splitOn '_' = [ds] := by
    refine List.splitOnP_eq_singleton fun c hc => ?_
    simpa using lower_ne (h c hc) (by decide)
  rw [magnitude16, htake, hdrop, hsplit]
  simp [hne]

/-- Lower-case digits stand for their value. -/
theorem int16_lower {ds : List Char} (h : ∀ c ∈ ds, isLowerHex c = true) (hne : ds ≠ []) :
    int16 ds = some (ofHex ds : Int) := by
  have hmap : ds.map toAscii = ds := by
    calc ds.map toAscii = ds.map id := List.map_congr_left fun c hc => toAscii_lower (h c hc)
      _ = ds := List.map_id ds
  cases ds with
  | nil => exact absurd rfl hne
  | cons c ds =>
      have hc := h c List.mem_cons_self
      have hspace : isAsciiSpace c = false := by
        obtain ⟨d, hd, rfl⟩ := isLowerHex_cases hc
        interval_cases d <;> decide
      have hplain : afterPrefix (c :: ds) = c :: ds := by
        unfold afterPrefix
        split
        · rename_i x text heq
          obtain ⟨rfl, rfl⟩ := List.cons.inj heq
          have hx := h x (by simp)
          rw [if_neg]
          rintro (rfl | rfl)
          · exact absurd hx (by decide)
          · exact absurd hx (by decide)
        · rfl
      rw [int16, hmap, dropWhile_none hspace]
      split
      · rename_i heq
        exact absurd (List.cons.inj heq).1 (lower_ne hc (by decide))
      · rename_i heq
        exact absurd (List.cons.inj heq).1 (lower_ne hc (by decide))
      · rw [hplain, magnitude16_lower h hne]
        rfl

/-! ### UUIDs -/

/-- `UUID(value).int` -/
def uuid (value : List Char) : Option Nat :=
  let hex := erase "-".toList 0 (strip (fun c => c = '\x7b' || c = '\x7d')
    (erase "uuid:".toList 0 (erase "urn:".toList 0 value)))
  if hex.length = 32 then
    match int16 hex with
    | some n => if 0 ≤ n ∧ n < 2 ^ 128 then some n.toNat else none
    | none => none
  else none

/-- `str` of the UUID with that value. -/
def uuidText (n : Nat) : List Char :=
  let hex := hexPad 32 n
  hex.take 8 ++ '-' :: ((hex.drop 8).take 4 ++ '-' :: ((hex.drop 12).take 4 ++
    '-' :: ((hex.drop 16).take 4 ++ '-' :: hex.drop 20)))

/-- 8-4-4-4-12 lower-case hexadecimal digits. -/
def Canonical (s : List Char) : Prop :=
  ∃ a b c d e : List Char, s = a ++ '-' :: (b ++ '-' :: (c ++ '-' :: (d ++ '-' :: e))) ∧
    a.length = 8 ∧ b.length = 4 ∧ c.length = 4 ∧ d.length = 4 ∧ e.length = 12 ∧
    ∀ x ∈ a ++ (b ++ (c ++ (d ++ e))), isLowerHex x = true

theorem Canonical.length {s : List Char} (h : Canonical s) : s.length = 36 := by
  obtain ⟨a, b, c, d, e, rfl, ha, hb, hc, hd, he, -⟩ := h
  simp only [List.length_append, List.length_cons]
  omega

theorem Canonical.mem {s : List Char} (h : Canonical s) {x : Char} (hx : x ∈ s) :
    x = '-' ∨ isLowerHex x = true := by
  obtain ⟨a, b, c, d, e, rfl, -, -, -, -, -, hlower⟩ := h
  by_cases hhyphen : x = '-'
  · exact .inl hhyphen
  · refine .inr (hlower x ?_)
    simp only [List.mem_append, List.mem_cons, hhyphen, false_or] at hx ⊢
    exact hx

theorem uuidText_canonical (n : Nat) : Canonical (uuidText n) := by
  have hlen := hexPad_length 32 n
  refine ⟨_, _, _, _, _, rfl, ?_, ?_, ?_, ?_, ?_, ?_⟩
  · simp [hlen]
  · simp [hlen]
  · simp [hlen]
  · simp [hlen]
  · simp [hlen]
  · intro x hx
    apply hexPad_lower 32 n x
    simp only [List.mem_append] at hx
    rcases hx with hx | hx | hx | hx | hx
    · exact List.mem_of_mem_take hx
    · exact List.mem_of_mem_drop (List.mem_of_mem_take hx)
    · exact List.mem_of_mem_drop (List.mem_of_mem_take hx)
    · exact List.mem_of_mem_drop (List.mem_of_mem_take hx)
    · exact List.mem_of_mem_drop hx

/-- Where the hyphens of a rendering stand. -/
theorem uuidText_of_hexPad {n : Nat} {a b c d e : List Char}
    (h : hexPad 32 n = a ++ (b ++ (c ++ (d ++ e)))) (ha : a.length = 8) (hb : b.length = 4)
    (hc : c.length = 4) (hd : d.length = 4) :
    uuidText n = a ++ '-' :: (b ++ '-' :: (c ++ '-' :: (d ++ '-' :: e))) := by
  have h8 : (hexPad 32 n).drop 8 = b ++ (c ++ (d ++ e)) := by
    rw [h, ← ha, List.drop_left]
  have h12 : (hexPad 32 n).drop 12 = c ++ (d ++ e) := by
    rw [← List.drop_drop (i := 4) (j := 8), h8, ← hb, List.drop_left]
  have h16 : (hexPad 32 n).drop 16 = d ++ e := by
    rw [← List.drop_drop (i := 4) (j := 12), h12, ← hc, List.drop_left]
  have h20 : (hexPad 32 n).drop 20 = e := by
    rw [← List.drop_drop (i := 4) (j := 16), h16, ← hd, List.drop_left]
  simp only [uuidText, h8, h12, h16, h20]
  rw [h, List.take_left' ha, List.take_left' hb, List.take_left' hc, List.take_left' hd]

/-- Hyphens are all that `replace` takes out of a canonical text. -/
theorem erase_hyphen {ds : List Char} (h : '-' ∉ ds) (text : List Char) :
    erase "-".toList 0 (ds ++ text) = ds ++ erase "-".toList 0 text := by
  induction ds with
  | nil => rfl
  | cons c ds ih =>
      have hc : '-' ≠ c := fun heq => h (heq ▸ List.mem_cons_self)
      rw [List.cons_append, erase, if_neg (by simp [hc]),
        ih fun hmem => h (List.mem_cons_of_mem c hmem)]
      rfl

theorem erase_hyphen_cons (text : List Char) :
    erase "-".toList 0 ('-' :: text) = erase "-".toList 0 text := rfl

/-- **A text is the rendering of the UUID that it stands for if and only if it is canonical.** -/
theorem uuid_renders_iff {s : List Char} :
    (∃ n, uuid s = some n ∧ uuidText n = s) ↔ Canonical s := by
  constructor
  · rintro ⟨n, -, rfl⟩
    exact uuidText_canonical n
  · intro hcanonical
    have hmem := fun x => hcanonical.mem (x := x)
    obtain ⟨a, b, c, d, e, rfl, ha, hb, hc, hd, he, hlower⟩ := hcanonical
    have hnot : ∀ x, isLowerHex x = false → x ∉ a ++ (b ++ (c ++ (d ++ e))) := by
      intro x hx hmem
      rw [hlower x hmem] at hx
      cases hx
    have habsent : ∀ x, x ≠ '-' → isLowerHex x = false →
        x ∉ a ++ '-' :: (b ++ '-' :: (c ++ '-' :: (d ++ '-' :: e))) := by
      intro x hne hx hin
      rcases hmem x hin with heq | hlow
      · exact hne heq
      · rw [hx] at hlow
        cases hlow
    have hurn := erase_none "urn:".toList (d := ':') (by decide)
      (habsent ':' (by decide) (by decide))
    have huuid := erase_none "uuid:".toList (d := ':') (by decide)
      (habsent ':' (by decide) (by decide))
    have hstrip : strip (fun c => c = '\x7b' || c = '\x7d')
        (a ++ '-' :: (b ++ '-' :: (c ++ '-' :: (d ++ '-' :: e)))) =
          a ++ '-' :: (b ++ '-' :: (c ++ '-' :: (d ++ '-' :: e))) := by
      refine strip_none fun x hx => ?_
      have hopen : x ≠ '\x7b' := fun heq => habsent _ (by decide) (by decide) (heq ▸ hx)
      have hclose : x ≠ '\x7d' := fun heq => habsent _ (by decide) (by decide) (heq ▸ hx)
      simp [hopen, hclose]
    have hhyphen := hnot '-' (by decide)
    simp only [List.mem_append, not_or] at hhyphen
    obtain ⟨ha', hb', hc', hd', he'⟩ := hhyphen
    have hhex : erase "-".toList 0 (a ++ '-' :: (b ++ '-' :: (c ++ '-' :: (d ++ '-' :: e)))) =
        a ++ (b ++ (c ++ (d ++ e))) := by
      rw [erase_hyphen ha', erase_hyphen_cons, erase_hyphen hb', erase_hyphen_cons,
        erase_hyphen hc', erase_hyphen_cons, erase_hyphen hd', erase_hyphen_cons,
        erase_none "-".toList (d := '-') (by decide) he']
    have hlen : (a ++ (b ++ (c ++ (d ++ e)))).length = 32 := by
      simp only [List.length_append]
      omega
    have hne : a ++ (b ++ (c ++ (d ++ e))) ≠ [] := by
      intro hnil
      rw [hnil] at hlen
      cases hlen
    obtain ⟨hlt, hpad⟩ := hexPad_ofHex hlower
    rw [hlen] at hlt hpad
    refine ⟨ofHex (a ++ (b ++ (c ++ (d ++ e)))), ?_, ?_⟩
    · rw [uuid]
      rw [hurn, huuid, hstrip, hhex, if_pos hlen, int16_lower hlower hne]
      simp only
      rw [if_pos ⟨by omega, by omega⟩, Int.toNat_natCast]
    · exact uuidText_of_hexPad hpad ha hb hc hd

end PyText
