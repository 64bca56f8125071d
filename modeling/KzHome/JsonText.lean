import KzHome.Basic
import Mathlib.Tactic.IntervalCases

/-!
# KzHome.JsonText

The text `json.dumps` and `datetime.isoformat` produce.

`json.dumps` escapes everything outside printable ASCII, so the text of a string
can be read back character by character: `unescape` undoes `escapeChar` whatever
follows, and the injectivity of the list rendering — which makes the text of a
permit context name exactly one context — is read off it.
-/

namespace KzHome.JsonText

/-! ### Escaped characters -/

/-- A hexadecimal digit of `'{:04x}'.format`. -/
def hexDigit (n : Nat) : Char := if n < 10 then Char.ofNat (48 + n) else Char.ofNat (87 + n)

/-- The value of a hexadecimal digit. -/
def hexValue (c : Char) : Nat := if c.toNat < 58 then c.toNat - 48 else c.toNat - 87

/-- `'{:04x}'.format(n)` for a 16-bit `n`. -/
def hex4 (n : Nat) : List Char :=
  [hexDigit (n / 4096 % 16), hexDigit (n / 256 % 16), hexDigit (n / 16 % 16), hexDigit (n % 16)]

/-- The 16-bit value of four hexadecimal digits. -/
def unhex4 (a b c d : Char) : Nat :=
  4096 * hexValue a + 256 * hexValue b + 16 * hexValue c + hexValue d

/-- The escape characters: reverse solidus, quotation mark and the letter `u`. -/
def backslash : Char := Char.ofNat 92
def quotation : Char := Char.ofNat 34
def letterU : Char := Char.ofNat 117

/-- The two-character escapes: the code point and the letter that stands for it. -/
def shortEscapes : List (Nat × Nat) :=
  [(34, 34), (92, 92), (10, 110), (13, 114), (9, 116), (12, 102), (8, 98)]

/-- One character as `json.dumps` writes it inside a string. -/
def escapeChar (c : Char) : List Char :=
  match shortEscapes.find? (fun e => e.1 = c.toNat) with
  | some e => [backslash, Char.ofNat e.2]
  | none =>
    if 32 ≤ c.toNat ∧ c.toNat ≤ 126 then [c]
    else if c.toNat < 65536 then backslash :: letterU :: hex4 c.toNat
    else
      -- outside the basic plane: a surrogate pair
      backslash :: letterU :: hex4 (55296 + (c.toNat - 65536) / 1024 % 1024) ++
        backslash :: letterU :: hex4 (56320 + (c.toNat - 65536) % 1024)

/-- Read one character of a string back, with the text after it. -/
def unescape : List Char → Option (Char × List Char)
  | [] => none
  | c :: rest =>
    if c ≠ backslash then some (c, rest)
    else match rest with
      | [] => none
      | e :: rest =>
        if e ≠ letterU then
          (shortEscapes.find? (fun s => s.2 = e.toNat)).map fun s => (Char.ofNat s.1, rest)
        else match rest with
          | h₀ :: h₁ :: h₂ :: h₃ :: rest =>
            let n := unhex4 h₀ h₁ h₂ h₃
            if n < 55296 ∨ 56320 ≤ n then some (Char.ofNat n, rest)
            else match rest with
              | _ :: _ :: l₀ :: l₁ :: l₂ :: l₃ :: rest =>
                some (Char.ofNat (65536 + (n - 55296) * 1024 + (unhex4 l₀ l₁ l₂ l₃ - 56320)), rest)
              | _ => none
          | _ => none

theorem hexValue_hexDigit {n : Nat} (h : n < 16) : hexValue (hexDigit n) = n := by
  interval_cases n <;> decide

theorem unhex4_hex4 {n : Nat} (h : n < 65536) :
    unhex4 (hexDigit (n / 4096 % 16)) (hexDigit (n / 256 % 16)) (hexDigit (n / 16 % 16))
      (hexDigit (n % 16)) = n := by
  unfold unhex4
  rw [hexValue_hexDigit (by omega), hexValue_hexDigit (by omega), hexValue_hexDigit (by omega),
    hexValue_hexDigit (by omega)]
  omega

theorem ofNat_toNat (c : Char) : Char.ofNat c.toNat = c := by
  simp

/-- **Escapes are read back**, whatever text follows. -/
theorem unescape_escapeChar (c : Char) (rest : List Char) :
    unescape (escapeChar c ++ rest) = some (c, rest) := by
  unfold escapeChar
  cases hs : shortEscapes.find? (fun e => e.1 = c.toNat) with
  | some e =>
      have hmem := List.mem_of_find?_eq_some hs
      have he : e.1 = c.toNat := by simpa using List.find?_some hs
      have hc : Char.ofNat e.1 = c := by rw [he, ofNat_toNat]
      simp only [shortEscapes, List.mem_cons, List.not_mem_nil, or_false] at hmem
      rcases hmem with rfl | rfl | rfl | rfl | rfl | rfl | rfl <;>
        · subst hc
          simp [unescape, backslash, letterU, shortEscapes]
  | none =>
      have hne : ∀ e ∈ shortEscapes, e.1 ≠ c.toNat := by simpa using hs
      have hb : c ≠ backslash := by
        rintro rfl
        exact hne (92, 92) (by simp [shortEscapes]) (by decide)
      simp only
      split
      · simp [unescape, hb]
      split
      · rename_i hlt
        have hval : c.toNat < 55296 ∨ 56320 ≤ c.toNat := by
          rcases c.valid with h | h
          · left; exact h
          · right
            have : 57343 < c.toNat := h.1
            omega
        simp [unescape, hex4, letterU, backslash, unhex4_hex4 hlt, hval]
      · rename_i hge
        have hmax : c.toNat < 1114112 := by
          rcases c.valid with h | h
          · have : c.toNat < 55296 := h
            omega
          · exact h.2
        have hhi : 55296 + (c.toNat - 65536) / 1024 % 1024 < 65536 := by omega
        have hlo : 56320 + (c.toNat - 65536) % 1024 < 65536 := by omega
        have hsur : ¬ (55296 + (c.toNat - 65536) / 1024 % 1024 < 55296 ∨
            56320 ≤ 55296 + (c.toNat - 65536) / 1024 % 1024) := by omega
        have hval : 65536 + (55296 + (c.toNat - 65536) / 1024 % 1024 - 55296) * 1024 +
            (56320 + (c.toNat - 65536) % 1024 - 56320) = c.toNat := by omega
        simp only [unescape, hex4, List.cons_append, List.nil_append]
        rw [if_neg (by simp), if_neg (by simp)]
        simp only [unhex4_hex4 hhi, unhex4_hex4 hlo]
        rw [if_neg hsur, hval, ofNat_toNat]

theorem escapeChar_append_inj {c d : Char} {r r' : List Char}
    (h : escapeChar c ++ r = escapeChar d ++ r') : c = d ∧ r = r' := by
  have h' := congrArg unescape h
  rw [unescape_escapeChar, unescape_escapeChar] at h'
  simpa using h'

/-- No escape begins with the quotation mark that ends a string. -/
theorem escapeChar_ne_quotation (c : Char) (r r' : List Char) :
    escapeChar c ++ r ≠ quotation :: r' := by
  intro h
  have h' := congrArg unescape h
  rw [unescape_escapeChar] at h'
  have hq : unescape (quotation :: r') = some (quotation, r') := by
    simp [unescape, quotation, backslash]
  rw [hq] at h'
  obtain ⟨rfl, rfl⟩ : c = quotation ∧ r = r' := by simpa using h'
  simp [escapeChar, shortEscapes, quotation, backslash] at h

/-! ### Strings and lists of strings -/

/-- A string as `json.dumps` writes it. -/
def quote (s : String) : List Char :=
  quotation :: s.toList.flatMap escapeChar ++ [quotation]

theorem flatMap_escape_inj : ∀ {xs ys r r' : List Char},
    xs.flatMap escapeChar ++ quotation :: r = ys.flatMap escapeChar ++ quotation :: r' →
      xs = ys ∧ r = r'
  | [], [], _, _, h => by simpa using h
  | [], y :: ys, _, _, h => by
      simp only [List.flatMap_nil, List.nil_append, List.flatMap_cons, List.append_assoc] at h
      exact absurd h.symm (escapeChar_ne_quotation _ _ _)
  | x :: xs, [], _, _, h => by
      simp only [List.flatMap_nil, List.nil_append, List.flatMap_cons, List.append_assoc] at h
      exact absurd h (escapeChar_ne_quotation _ _ _)
  | x :: xs, y :: ys, _, _, h => by
      simp only [List.flatMap_cons, List.append_assoc] at h
      obtain ⟨rfl, h'⟩ := escapeChar_append_inj h
      obtain ⟨rfl, rfl⟩ := flatMap_escape_inj h'
      exact ⟨rfl, rfl⟩

/-- The text of a string determines the string and what follows it. -/
theorem quote_append_inj {s s' : String} {r r' : List Char}
    (h : quote s ++ r = quote s' ++ r') : s = s' ∧ r = r' := by
  simp only [quote, List.cons_append, List.append_assoc, List.nil_append, List.cons.injEq,
    true_and] at h
  obtain ⟨hs, hr⟩ := flatMap_escape_inj h
  exact ⟨String.toList_inj.mp hs, hr⟩

/-- The items of a JSON list after the first, with the default separators. -/
def tailItems : List String → List Char
  | [] => "]".toList
  | s :: rest => ", ".toList ++ quote s ++ tailItems rest

/-- `json.dumps` of a list of strings. -/
def dumpsList : List String → String
  | [] => "[]"
  | s :: rest => String.ofList ("[".toList ++ quote s ++ tailItems rest)

theorem tailItems_inj : ∀ {xs ys : List String}, tailItems xs = tailItems ys → xs = ys
  | [], [], _ => rfl
  | [], y :: ys, h => by simp [tailItems] at h
  | x :: xs, [], h => by simp [tailItems] at h
  | x :: xs, y :: ys, h => by
      simp only [tailItems, List.append_assoc, List.append_cancel_left_eq] at h
      obtain ⟨rfl, h'⟩ := quote_append_inj h
      rw [tailItems_inj h']

/-- `json.dumps` tells non-empty lists of strings apart. -/
theorem dumpsList_inj {x y : String} {xs ys : List String}
    (h : dumpsList (x :: xs) = dumpsList (y :: ys)) : x = y ∧ xs = ys := by
  simp only [dumpsList, List.append_assoc, String.ofList_inj, List.append_cancel_left_eq] at h
  obtain ⟨rfl, h'⟩ := quote_append_inj h
  exact ⟨rfl, tailItems_inj h'⟩

/-! ### Control payloads -/

/-- The values that occur in control payloads. -/
inductive Field
  | text (s : String)
  | number (n : Int)
  /-- The object `{"on": b}`. -/
  | switch (on : Bool)

/-- A value with `separators=(",", ":")`. -/
def Field.dump : Field → List Char
  | .text s => quote s
  | .number n => (toString n).toList
  | .switch on => "\x7b\"on\":".toList ++ (toString on).toList ++ "\x7d".toList

/-- `json.dumps(fields, separators=(",", ":"))`. -/
def dumps (fields : List (String × Field)) : String :=
  let members := fields.map fun f => quote f.1 ++ ":".toList ++ f.2.dump
  String.ofList ("\x7b".toList ++ (",".toList).intercalate members ++ "\x7d".toList)

theorem intercalate_cons (sep x : List Char) (l : List (List Char)) :
    sep.intercalate (x :: l) = x ++ (l.map (sep ++ ·)).flatten := by
  induction l generalizing x with
  | nil => simp
  | cons y l ih =>
      rw [List.intercalate_cons_cons, ih y]
      simp

/-- The members of an object after the first, and its end. -/
def tailMembers : List (String × Field) → List Char
  | [] => "\x7d".toList
  | f :: rest => ",".toList ++ (quote f.1 ++ (":".toList ++ (f.2.dump ++ tailMembers rest)))

theorem dumps_cons (f : String × Field) (rest : List (String × Field)) :
    dumps (f :: rest) = String.ofList
      ("\x7b".toList ++ (quote f.1 ++ (":".toList ++ (f.2.dump ++ tailMembers rest)))) := by
  have htail : ∀ fs : List (String × Field),
      ((fs.map fun f => quote f.1 ++ ":".toList ++ f.2.dump).map (",".toList ++ ·)).flatten ++
        "\x7d".toList = tailMembers fs := by
    intro fs
    induction fs with
    | nil => rfl
    | cons g gs ih =>
        rw [List.map_cons, List.map_cons, List.flatten_cons, List.append_assoc, ih]
        simp only [tailMembers, List.append_assoc]
  rw [dumps, List.map_cons, intercalate_cons, ← htail rest]
  simp only [List.append_assoc]

/-- How long the members after the first are, with the end of the object. -/
theorem tailMembers_length (fs : List (String × Field)) : (tailMembers fs).length =
    (fs.map fun f => (quote f.1).length + f.2.dump.length + 2).sum + 1 := by
  have hcolon : ":".toList.length = 1 := by decide
  have hcomma : ",".toList.length = 1 := by decide
  have hend : "\x7d".toList.length = 1 := by decide
  induction fs with
  | nil => exact hend
  | cons f fs ih =>
      rw [tailMembers, List.map_cons, List.sum_cons, List.length_append, List.length_append,
        List.length_append, List.length_append, ih, hcolon, hcomma]
      omega

/-- The text of an object is as long as that of its members in another one. -/
theorem dumps_length (f : String × Field) (rest : List (String × Field)) :
    ∃ text, dumps (f :: rest) = String.ofList text ∧
      text.length = (tailMembers (f :: rest)).length := by
  have hsame : "\x7b".toList.length = ",".toList.length := by decide
  refine ⟨_, dumps_cons f rest, ?_⟩
  rw [List.length_append, hsame, tailMembers]
  exact List.length_append.symm

/-- The texts of two objects agree after what begins them. -/
theorem dumps_cons_inj {f f' : String × Field} {rest rest' : List (String × Field)}
    (h : dumps (f :: rest) = dumps (f' :: rest')) :
    tailMembers (f :: rest) = tailMembers (f' :: rest') := by
  rw [dumps_cons, dumps_cons, String.ofList_inj] at h
  exact congrArg (",".toList ++ ·) (List.append_cancel_left h)

/-- What follows a member. -/
theorem tailMembers_member {f : String × Field} {rest rest' : List (String × Field)}
    (h : tailMembers (f :: rest) = tailMembers (f :: rest')) :
    tailMembers rest = tailMembers rest' :=
  List.append_cancel_left (List.append_cancel_left (List.append_cancel_left
    (List.append_cancel_left h)))

/-- The text of a text member is read off what follows its key. -/
theorem tailMembers_text {k s s' : String} {rest rest' : List (String × Field)}
    (h : tailMembers ((k, .text s) :: rest) = tailMembers ((k, .text s') :: rest')) :
    s = s' ∧ tailMembers rest = tailMembers rest' :=
  quote_append_inj (List.append_cancel_left (List.append_cancel_left (List.append_cancel_left h)))

/-- Two objects with the same first member and the same second key differ if the text
under that key does. -/
theorem dumps_second_inj {k k' s s' : String} {v : Field} {rest rest' : List (String × Field)}
    (h : dumps ((k, v) :: (k', .text s) :: rest) = dumps ((k, v) :: (k', .text s') :: rest')) :
    s = s' :=
  (tailMembers_text (tailMembers_member (dumps_cons_inj h))).1

/-! ### Dates -/

/-- Year, month and day of a day number counted from 1970-01-01. -/
def civil (days : Int) : Int × Int × Int :=
  let z := days + 719468
  let era := z / 146097
  let doe := z % 146097
  let yoe := (doe - doe / 1460 + doe / 36524 - doe / 146096) / 365
  let doy := doe - (365 * yoe + yoe / 4 - yoe / 100)
  let mp := (5 * doy + 2) / 153
  let month := if mp < 10 then mp + 3 else mp - 9
  (yoe + era * 400 + (if month ≤ 2 then 1 else 0), month, doy - (153 * mp + 2) / 5 + 1)

/-- `n` in decimal, padded with zeros to `width` digits. -/
def padded (width : Nat) (n : Int) : String :=
  let digits := toString n
  String.ofList (List.replicate (width - digits.length) (Char.ofNat 48)) ++ digits

/-- `datetime.isoformat` of an aware UTC instant. -/
def isoformat (t : Instant) : String :=
  let us := t % (86400 * second)
  let (year, month, day) := civil (t / (86400 * second))
  padded 4 year ++ "-" ++ padded 2 month ++ "-" ++ padded 2 day ++ "T" ++
    padded 2 (us / (3600 * second)) ++ ":" ++ padded 2 (us / (60 * second) % 60) ++ ":" ++
    padded 2 (us / second % 60) ++
    (if us % second = 0 then "" else "." ++ padded 6 (us % second)) ++ "+00:00"

example : isoformat 1793491200000000 = "2026-11-01T00:00:00+00:00" := by decide +kernel

end KzHome.JsonText
