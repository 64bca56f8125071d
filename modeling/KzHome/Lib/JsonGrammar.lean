import KzHome.Lib.PyText

/-!
# KzHome.Lib.JsonGrammar

JSON texts as Python's `json` module reads them: the grammar, and the reader.

A text is a list of characters. `Text` relates it to the value that it stands for, nested at
most so many levels; the reader gives up below as many, as the interpreter does. An object is the
list of its pairs, and a hook decides whether it is accepted. The names `NaN`, `Infinity` and
`-Infinity` are read as well. Characters of strings are code points: an escape can name a
surrogate, and two that make a pair are one character.

**The reader is the grammar** (`parse_iff`): it reads exactly the documents, as what they stand
for.
-/

namespace JsonGrammar

open PyText (hexDigit?)

/-- The names of floats that are no numbers. -/
inductive Constant
  | nan
  | infinity
  | negInfinity
  deriving DecidableEq, Repr

/-- What a text stands for; a float is kept as it is written. -/
inductive Value
  | null
  | bool (b : Bool)
  | int (n : Int)
  | float (text : List Char)
  | constant (c : Constant)
  | str (s : List Nat)
  | arr (items : List Value)
  | obj (members : List (List Nat × Value))

/-! ### Characters -/

def isSpace (c : Char) : Bool := c = ' ' || c = '\t' || c = '\n' || c = '\r'

def isDigit (c : Char) : Bool := '0' ≤ c && c ≤ '9'

/-- The text after leading white space. -/
def skip (text : List Char) : List Char := text.dropWhile isSpace

def Blank (w : List Char) : Prop := ∀ c ∈ w, isSpace c = true

theorem blank_nil : Blank [] := fun _ h => nomatch h

theorem skip_append {w : List Char} (hw : Blank w) (text : List Char) :
    skip (w ++ text) = skip text := by
  induction w with
  | nil => rfl
  | cons c w ih =>
      rw [skip, List.cons_append, List.dropWhile_cons_of_pos (hw c List.mem_cons_self)]
      exact ih fun d hd => hw d (List.mem_cons_of_mem c hd)

theorem skip_cons {c : Char} (hc : isSpace c = false) (text : List Char) :
    skip (c :: text) = c :: text := by
  rw [skip, List.dropWhile_cons_of_neg (by rw [hc]; decide)]

/-- What is skipped is white space. -/
theorem skip_split (text : List Char) : ∃ w, Blank w ∧ text = w ++ skip text := by
  refine ⟨text.takeWhile isSpace, fun c hc => List.mem_takeWhile_imp hc, ?_⟩
  exact List.takeWhile_append_dropWhile.symm

/-- A character that no number goes on with. -/
def Ends (c : Char) : Prop := isDigit c = false ∧ c ≠ '.' ∧ c ≠ 'e' ∧ c ≠ 'E'

/-- A text that no number goes on with. -/
def Delimited (rest : List Char) : Prop := ∀ c ∈ rest.head?, Ends c

theorem delimited_nil : Delimited [] := fun _ h => nomatch h

theorem delimited_cons {c : Char} (hc : Ends c) (rest : List Char) : Delimited (c :: rest) := by
  intro d hd
  obtain rfl := Option.some.inj hd
  exact hc

theorem ends_of_space {c : Char} (hc : isSpace c = true) : Ends c := by
  simp only [isSpace, Bool.or_eq_true, decide_eq_true_eq] at hc
  rcases hc with ((rfl | rfl) | rfl) | rfl
  · exact ⟨by decide, by decide, by decide, by decide⟩
  · exact ⟨by decide, by decide, by decide, by decide⟩
  · exact ⟨by decide, by decide, by decide, by decide⟩
  · exact ⟨by decide, by decide, by decide, by decide⟩

theorem delimited_append {w : List Char} (hw : Blank w) {rest : List Char}
    (hrest : Delimited rest) : Delimited (w ++ rest) := by
  cases w with
  | nil => exact hrest
  | cons c w => exact delimited_cons (ends_of_space (hw c List.mem_cons_self)) _

/-! ### Strings -/

/-- What a string is written with: a code point, or the unit of a `\u` escape. -/
inductive Piece
  | point (n : Nat)
  | unit (u : Nat)
  deriving DecidableEq, Repr

/-- Four hexadecimal digits. -/
def hex4 (a b c d : Char) : Option Nat :=
  match hexDigit? a, hexDigit? b, hexDigit? c, hexDigit? d with
  | some a, some b, some c, some d => some (a * 4096 + b * 256 + c * 16 + d)
  | _, _, _, _ => none

/-- The character that a short escape stands for. -/
def shortEscape : Char → Option Nat
  | '"' => some '"'.toNat
  | '\\' => some '\\'.toNat
  | '/' => some '/'.toNat
  | 'b' => some 8
  | 'f' => some 12
  | 'n' => some 10
  | 'r' => some 13
  | 't' => some 9
  | _ => none

/-- The pieces of a string up to its closing quotation mark, and the text after it. -/
def pieces : List Char → Option (List Piece × List Char)
  | [] => none
  | '"' :: rest => some ([], rest)
  | '\\' :: 'u' :: a :: b :: c :: d :: rest =>
    match hex4 a b c d, pieces rest with
    | some u, some (ps, rest) => some (.unit u :: ps, rest)
    | _, _ => none
  | '\\' :: e :: rest =>
    match shortEscape e, pieces rest with
    | some n, some (ps, rest) => some (.point n :: ps, rest)
    | _, _ => none
  | c :: rest =>
    if c < ' ' then none
    else (pieces rest).map fun r => (.point c.toNat :: r.1, r.2)

/-- The code points of a string: a high and a low surrogate that follow each other as escapes
are one. -/
def join : List Piece → List Nat
  | [] => []
  | .point n :: ps => n :: join ps
  | .unit h :: .unit l :: ps =>
    if 0xD800 ≤ h ∧ h ≤ 0xDBFF ∧ 0xDC00 ≤ l ∧ l ≤ 0xDFFF then
      (0x10000 + (h - 0xD800) * 0x400 + (l - 0xDC00)) :: join ps
    else h :: join (.unit l :: ps)
  | .unit u :: ps => u :: join ps

/-- How the inside of a string is written. -/
inductive Pieces : List Piece → List Char → Prop
  | nil : Pieces [] []
  | point {c : Char} {ps : List Piece} {cs : List Char} (hc : ¬ c < ' ') (hquote : c ≠ '"')
      (hescape : c ≠ '\\') (h : Pieces ps cs) : Pieces (.point c.toNat :: ps) (c :: cs)
  | short {e : Char} {n : Nat} {ps : List Piece} {cs : List Char} (he : shortEscape e = some n)
      (h : Pieces ps cs) : Pieces (.point n :: ps) ('\\' :: e :: cs)
  | unit {a b c d : Char} {u : Nat} {ps : List Piece} {cs : List Char}
      (hu : hex4 a b c d = some u) (h : Pieces ps cs) :
      Pieces (.unit u :: ps) ('\\' :: 'u' :: a :: b :: c :: d :: cs)

theorem Pieces.append {ps qs : List Piece} {cs ds : List Char} (h : Pieces ps cs)
    (h' : Pieces qs ds) : Pieces (ps ++ qs) (cs ++ ds) := by
  induction h with
  | nil => exact h'
  | point hc hquote hescape _ ih => exact .point hc hquote hescape ih
  | short he _ ih => exact .short he ih
  | unit hu _ ih => exact .unit hu ih

/-- What the reader of a string takes is the inside of a string and its quotation mark. -/
theorem pieces_sound {text : List Char} {ps : List Piece} {rest : List Char}
    (h : pieces text = some (ps, rest)) : ∃ cs, text = cs ++ '"' :: rest ∧ Pieces ps cs := by
  induction text using pieces.induct generalizing ps with
  | case1 => simp [pieces] at h
  | case2 rest' =>
      simp only [pieces, Option.some.injEq, Prod.mk.injEq] at h
      obtain ⟨rfl, rfl⟩ := h
      exact ⟨[], rfl, .nil⟩
  | case3 a b c d rest' u ps' rest'' hps hu ih =>
      simp only [pieces, hu, hps, Option.some.injEq, Prod.mk.injEq] at h
      obtain ⟨rfl, rfl⟩ := h
      obtain ⟨cs, rfl, hcs⟩ := ih hps
      exact ⟨'\\' :: 'u' :: a :: b :: c :: d :: cs, rfl, .unit hu hcs⟩
  | case4 a b c d rest' hnone _ =>
      simp only [pieces] at h
      cases h
  | case5 e rest' hu n ps' rest'' hps he ih =>
      rw [pieces.eq_4 e rest' hu, he, hps] at h
      simp only [Option.some.injEq, Prod.mk.injEq] at h
      obtain ⟨rfl, rfl⟩ := h
      obtain ⟨cs, rfl, hcs⟩ := ih hps
      exact ⟨'\\' :: e :: cs, rfl, .short he hcs⟩
  | case6 e rest' hu hnone _ =>
      rw [pieces.eq_4 e rest' hu] at h
      split at h
      · rename_i n ps' r he hps
        exact absurd hps (fun hps => hnone n ps' r he hps)
      · cases h
  | case7 c rest' hquote hu he hc =>
      rw [pieces.eq_5 c rest' hquote hu he, if_pos hc] at h
      cases h
  | case8 c rest' hquote hu he hc ih =>
      rw [pieces.eq_5 c rest' hquote hu he, if_neg hc] at h
      obtain ⟨⟨ps', r⟩, hps, heq⟩ := Option.map_eq_some_iff.mp h
      simp only [Prod.mk.injEq] at heq
      obtain ⟨rfl, rfl⟩ := heq
      obtain ⟨cs, rfl, hcs⟩ := ih hps
      have hescape : c ≠ '\\' := by
        intro hbad
        cases cs with
        | nil => exact he '"' r hbad rfl
        | cons e cs => exact he e (cs ++ '"' :: r) hbad rfl
      exact ⟨c :: cs, rfl, .point hc hquote hescape hcs⟩

theorem pieces_complete {ps : List Piece} {cs : List Char} (h : Pieces ps cs)
    (rest : List Char) : pieces (cs ++ '"' :: rest) = some (ps, rest) := by
  induction h with
  | nil => rfl
  | @point c ps cs hc hquote hescape _ ih =>
      have hu : ∀ a b c' d rest', c = '\\' → cs ++ '"' :: rest = 'u' :: a :: b :: c' :: d :: rest' →
          False := fun _ _ _ _ _ hbad _ => hescape hbad
      have he : ∀ e rest', c = '\\' → cs ++ '"' :: rest = e :: rest' → False :=
        fun _ _ hbad _ => hescape hbad
      rw [List.cons_append, pieces.eq_5 c _ hquote hu he, if_neg hc, ih]
      rfl
  | @short e n ps cs he _ ih =>
      have hu : ∀ a b c d rest', e = 'u' → cs ++ '"' :: rest = a :: b :: c :: d :: rest' →
          False := by
        rintro a b c d rest' rfl -
        cases he
      rw [List.cons_append, List.cons_append, pieces.eq_4 e _ hu, he, ih]
  | @unit a b c d u ps cs hu _ ih =>
      simp only [List.cons_append, pieces, hu, ih]

/-! ### Numbers -/

/-- A text that no digit is in front of. -/
def Undigited (rest : List Char) : Prop := ∀ c ∈ rest.head?, isDigit c = false

theorem undigited_of_delimited {rest : List Char} (h : Delimited rest) : Undigited rest :=
  fun c hc => (h c hc).1

def Digits (ds : List Char) : Prop := ∀ d ∈ ds, isDigit d = true

theorem takeWhile_digits {ds rest : List Char} (hds : Digits ds) (hrest : Undigited rest) :
    (ds ++ rest).takeWhile isDigit = ds := by
  induction ds with
  | nil =>
      cases rest with
      | nil => rfl
      | cons c rest =>
          exact List.takeWhile_cons_of_neg (by simp [hrest c rfl])
  | cons d ds ih =>
      rw [List.cons_append, List.takeWhile_cons_of_pos (hds d List.mem_cons_self),
        ih fun e he => hds e (List.mem_cons_of_mem d he)]

theorem dropWhile_digits {ds rest : List Char} (hds : Digits ds) (hrest : Undigited rest) :
    (ds ++ rest).dropWhile isDigit = rest := by
  have h := List.takeWhile_append_dropWhile (p := isDigit) (l := ds ++ rest)
  rw [takeWhile_digits hds hrest] at h
  exact List.append_cancel_left h

/-- The integer part: a zero, or digits that begin with none. -/
inductive Whole : List Char → Prop
  | zero : Whole ['0']
  | digits {d : Char} {ds : List Char} (hd : isDigit d = true) (hzero : d ≠ '0')
      (hds : Digits ds) : Whole (d :: ds)

def whole : List Char → Option (List Char × List Char)
  | [] => none
  | d :: rest =>
    if d = '0' then some (['0'], rest)
    else if isDigit d then some (d :: rest.takeWhile isDigit, rest.dropWhile isDigit)
    else none

/-- The fraction, or nothing. -/
inductive Fraction : List Char → Prop
  | none : Fraction []
  | some {d : Char} {ds : List Char} (hd : isDigit d = true) (hds : Digits ds) :
      Fraction ('.' :: d :: ds)

/-- A point that no digit follows belongs to no number. -/
def fraction : List Char → List Char × List Char
  | '.' :: d :: rest =>
    if isDigit d then ('.' :: d :: rest.takeWhile isDigit, rest.dropWhile isDigit)
    else ([], '.' :: d :: rest)
  | rest => ([], rest)

def IsSign (s : List Char) : Prop := s = [] ∨ s = ['+'] ∨ s = ['-']

/-- The exponent, or nothing. -/
inductive Exponent : List Char → Prop
  | none : Exponent []
  | some {e d : Char} {s ds : List Char} (he : e = 'e' ∨ e = 'E') (hs : IsSign s)
      (hd : isDigit d = true) (hds : Digits ds) : Exponent (e :: (s ++ d :: ds))

def sign : List Char → List Char × List Char
  | '+' :: rest => (['+'], rest)
  | '-' :: rest => (['-'], rest)
  | rest => ([], rest)

/-- The digits of an exponent after its sign `s`; without one there is no exponent. -/
def exponentDigits (text : List Char) (e : Char) (s : List Char) :
    List Char → List Char × List Char
  | [] => ([], text)
  | d :: rest =>
    if isDigit d then (e :: (s ++ d :: rest.takeWhile isDigit), rest.dropWhile isDigit)
    else ([], text)

def exponent : List Char → List Char × List Char
  | [] => ([], [])
  | e :: rest =>
    if e = 'e' ∨ e = 'E' then exponentDigits (e :: rest) e (sign rest).1 (sign rest).2
    else ([], e :: rest)

/-- `int` of a run of digits. -/
def natOf (ds : List Char) : Nat := ds.foldl (fun n d => 10 * n + (d.toNat - '0'.toNat)) 0

/-- What a number stands for: an integer unless it has a fraction or an exponent. -/
def numeral (negative : Bool) (digits tail : List Char) : Value :=
  if tail = [] then .int (if negative then -(natOf digits : Int) else natOf digits)
  else .float ((if negative then ['-'] else []) ++ digits ++ tail)

inductive Number : Value → List Char → Prop
  | positive {i f e : List Char} (hi : Whole i) (hf : Fraction f) (he : Exponent e) :
      Number (numeral false i (f ++ e)) (i ++ (f ++ e))
  | negative {i f e : List Char} (hi : Whole i) (hf : Fraction f) (he : Exponent e) :
      Number (numeral true i (f ++ e)) ('-' :: (i ++ (f ++ e)))

def unsigned (negative : Bool) (text : List Char) : Option (Value × List Char) :=
  (whole text).map fun w =>
    (numeral negative w.1 ((fraction w.2).1 ++ (exponent (fraction w.2).2).1),
      (exponent (fraction w.2).2).2)

def number : List Char → Option (Value × List Char)
  | '-' :: text => unsigned true text
  | text => unsigned false text

theorem digits_takeWhile (text : List Char) : Digits (text.takeWhile isDigit) :=
  fun _ hd => List.mem_takeWhile_imp hd

theorem whole_sound {text i rest : List Char} (h : whole text = some (i, rest)) :
    text = i ++ rest ∧ Whole i := by
  cases text with
  | nil => cases h
  | cons d text =>
      simp only [whole] at h
      split at h
      · rename_i hzero
        simp only [Option.some.injEq, Prod.mk.injEq] at h
        obtain ⟨rfl, rfl⟩ := h
        exact ⟨by rw [hzero]; rfl, .zero⟩
      · rename_i hzero
        split at h
        · rename_i hd
          simp only [Option.some.injEq, Prod.mk.injEq] at h
          obtain ⟨rfl, rfl⟩ := h
          have happ : text = text.takeWhile isDigit ++ text.dropWhile isDigit :=
            List.takeWhile_append_dropWhile.symm
          exact ⟨congrArg (d :: ·) happ, .digits hd hzero (digits_takeWhile text)⟩
        · cases h

theorem whole_complete {i rest : List Char} (hi : Whole i) (hrest : Undigited rest) :
    whole (i ++ rest) = some (i, rest) := by
  cases hi with
  | zero => rfl
  | @digits d ds hd hzero hds =>
      rw [List.cons_append, whole, if_neg hzero, if_pos hd, takeWhile_digits hds hrest,
        dropWhile_digits hds hrest]

theorem fraction_sound (text : List Char) :
    text = (fraction text).1 ++ (fraction text).2 ∧ Fraction (fraction text).1 := by
  unfold fraction
  split
  · rename_i d rest
    split
    · rename_i hd
      have happ : rest = rest.takeWhile isDigit ++ rest.dropWhile isDigit :=
        List.takeWhile_append_dropWhile.symm
      exact ⟨congrArg (fun r => '.' :: d :: r) happ, .some hd (digits_takeWhile rest)⟩
    · exact ⟨rfl, .none⟩
  · exact ⟨rfl, .none⟩

/-- A text that goes on with neither a digit nor a point. -/
theorem fraction_complete {f rest : List Char} (hf : Fraction f) (hrest : Undigited rest)
    (hpoint : ∀ c ∈ rest.head?, c ≠ '.') : fraction (f ++ rest) = (f, rest) := by
  cases hf with
  | none =>
      rw [List.nil_append]
      unfold fraction
      split
      · exact absurd rfl (hpoint '.' rfl)
      · rfl
  | @some d ds hd hds =>
      rw [List.cons_append, List.cons_append, fraction, if_pos hd, takeWhile_digits hds hrest,
        dropWhile_digits hds hrest]

theorem sign_sound (text : List Char) :
    text = (sign text).1 ++ (sign text).2 ∧ IsSign (sign text).1 := by
  unfold sign
  split
  · exact ⟨rfl, .inr (.inl rfl)⟩
  · exact ⟨rfl, .inr (.inr rfl)⟩
  · exact ⟨rfl, .inl rfl⟩

theorem sign_complete {s : List Char} (hs : IsSign s) {d : Char} (hd : isDigit d = true)
    (rest : List Char) : sign (s ++ d :: rest) = (s, d :: rest) := by
  rcases hs with rfl | rfl | rfl
  · rw [List.nil_append]
    unfold sign
    split
    · rename_i heq
      cases heq
      exact absurd hd (by decide)
    · rename_i heq
      cases heq
      exact absurd hd (by decide)
    · rfl
  · rfl
  · rfl

theorem exponent_sound (text : List Char) :
    text = (exponent text).1 ++ (exponent text).2 ∧ Exponent (exponent text).1 := by
  cases text with
  | nil => exact ⟨rfl, .none⟩
  | cons e text =>
      rw [exponent]
      split
      · rename_i he
        obtain ⟨happ, hs⟩ := sign_sound text
        cases hrest : (sign text).2 with
        | nil => exact ⟨rfl, .none⟩
        | cons d rest =>
            rw [hrest] at happ
            rw [exponentDigits]
            split
            · rename_i hd
              have hdigits : rest = rest.takeWhile isDigit ++ rest.dropWhile isDigit :=
                List.takeWhile_append_dropWhile.symm
              refine ⟨?_, .some he hs hd (digits_takeWhile rest)⟩
              calc e :: text = e :: ((sign text).1 ++ d :: rest) := congrArg (e :: ·) happ
                _ = _ := by
                  conv_lhs => rw [hdigits]
                  simp
            · exact ⟨rfl, .none⟩
      · exact ⟨rfl, .none⟩

theorem exponent_complete {e rest : List Char} (he : Exponent e) (hrest : Delimited rest) :
    exponent (e ++ rest) = (e, rest) := by
  cases he with
  | none =>
      cases rest with
      | nil => rfl
      | cons c rest =>
          have hc := hrest c rfl
          rw [List.nil_append, exponent, if_neg]
          rintro (hbad | hbad)
          · exact hc.2.2.1 hbad
          · exact hc.2.2.2 hbad
  | @some e d s ds he hs hd hds =>
      have hun := undigited_of_delimited hrest
      have happ : s ++ d :: ds ++ rest = s ++ d :: (ds ++ rest) := by simp
      rw [List.cons_append, exponent, if_pos he, happ, sign_complete hs hd, exponentDigits,
        if_pos hd, takeWhile_digits hds hun, dropWhile_digits hds hun]

/-- What an exponent begins with is neither a digit nor a point. -/
theorem Exponent.head {e rest : List Char} (he : Exponent e) (hrest : Delimited rest) :
    ∀ c ∈ (e ++ rest).head?, isDigit c = false ∧ c ≠ '.' := by
  intro c hc
  cases he with
  | none => exact ⟨(hrest c hc).1, (hrest c hc).2.1⟩
  | some he _ _ _ =>
      obtain rfl := Option.some.inj hc
      rcases he with rfl | rfl
      · exact ⟨by decide, by decide⟩
      · exact ⟨by decide, by decide⟩

theorem Fraction.head {f rest : List Char} (hf : Fraction f) (hrest : Undigited rest) :
    Undigited (f ++ rest) := by
  cases hf with
  | none => exact hrest
  | some _ _ =>
      intro c hc
      obtain rfl := Option.some.inj hc
      decide

theorem unsigned_sound {negative : Bool} {text rest : List Char} {v : Value}
    (h : unsigned negative text = some (v, rest)) : ∃ i f e, Whole i ∧ Fraction f ∧ Exponent e ∧
      v = numeral negative i (f ++ e) ∧ text = i ++ (f ++ e) ++ rest := by
  obtain ⟨⟨i, r⟩, hw, heq⟩ := Option.map_eq_some_iff.mp h
  simp only [Prod.mk.injEq] at heq
  obtain ⟨rfl, rfl⟩ := heq
  obtain ⟨rfl, hi⟩ := whole_sound hw
  obtain ⟨hfapp, hf⟩ := fraction_sound r
  obtain ⟨heapp, he⟩ := exponent_sound (fraction r).2
  refine ⟨i, _, _, hi, hf, he, rfl, ?_⟩
  conv_lhs => rw [hfapp, heapp]
  simp

theorem unsigned_complete (negative : Bool) {i f e rest : List Char} (hi : Whole i)
    (hf : Fraction f) (he : Exponent e) (hrest : Delimited rest) :
    unsigned negative (i ++ (f ++ e) ++ rest) = some (numeral negative i (f ++ e), rest) := by
  have hhead := he.head hrest
  have hun : Undigited (e ++ rest) := fun c hc => (hhead c hc).1
  have happ : i ++ (f ++ e) ++ rest = i ++ (f ++ (e ++ rest)) := by simp
  rw [unsigned, happ, whole_complete hi (hf.head hun)]
  simp only [Option.map_some]
  rw [fraction_complete hf hun fun c hc => (hhead c hc).2]
  simp only
  rw [exponent_complete he hrest]

theorem number_sound {text rest : List Char} {v : Value} (h : number text = some (v, rest)) :
    ∃ cs, text = cs ++ rest ∧ Number v cs := by
  unfold number at h
  split at h
  · obtain ⟨i, f, e, hi, hf, he, rfl, rfl⟩ := unsigned_sound h
    exact ⟨_, by rw [← List.cons_append], .negative hi hf he⟩
  · obtain ⟨i, f, e, hi, hf, he, rfl, rfl⟩ := unsigned_sound h
    exact ⟨_, rfl, .positive hi hf he⟩

theorem Whole.head {i : List Char} (hi : Whole i) :
    ∃ d ds, i = d :: ds ∧ isDigit d = true := by
  cases hi with
  | zero => exact ⟨_, _, rfl, by decide⟩
  | digits hd _ _ => exact ⟨_, _, rfl, hd⟩

theorem number_complete {v : Value} {cs rest : List Char} (h : Number v cs)
    (hrest : Delimited rest) : number (cs ++ rest) = some (v, rest) := by
  cases h with
  | positive hi hf he =>
      rw [number]
      · exact unsigned_complete false hi hf he hrest
      · intro text hbad
        obtain ⟨d, ds, rfl, hd⟩ := hi.head
        obtain ⟨rfl, -⟩ := List.cons.inj hbad
        exact absurd hd (by decide)
  | negative hi hf he =>
      rw [List.cons_append, number]
      exact unsigned_complete true hi hf he hrest

/-! ### Scalars -/

/-- The names that are values. -/
def literals : List (List Char × Value) :=
  [("null".toList, .null), ("true".toList, .bool true), ("false".toList, .bool false),
   ("NaN".toList, .constant .nan), ("Infinity".toList, .constant .infinity),
   ("-Infinity".toList, .constant .negInfinity)]

def literal (text : List Char) : Option (Value × List Char) :=
  (literals.find? fun l => l.1.isPrefixOf text).map fun l => (l.2, text.drop l.1.length)

inductive Scalar : Value → List Char → Prop
  | literal {v : Value} {cs : List Char} (h : (cs, v) ∈ literals) : Scalar v cs
  | number {v : Value} {cs : List Char} (h : Number v cs) : Scalar v cs
  | str {ps : List Piece} {cs : List Char} (h : Pieces ps cs) :
      Scalar (.str (join ps)) ('"' :: (cs ++ ['"']))

/-- Why a text is not read: it is no document, it is nested too deeply, or the hook refuses one
of its objects. -/
inductive Failure
  | malformed
  | nested
  | refused
  deriving DecidableEq, Repr

/-- What is read off the front of a text. -/
abbrev Reader (α : Type) := List Char → Except Failure (α × List Char)

def scalar : Reader Value
  | '"' :: text =>
    match pieces text with
    | some (ps, rest) => .ok (.str (join ps), rest)
    | none => .error .malformed
  | text =>
    match literal text with
    | some r => .ok r
    | none =>
      match number text with
      | some r => .ok r
      | none => .error .malformed

theorem literal_sound {text rest : List Char} {v : Value} (h : literal text = some (v, rest)) :
    ∃ cs, text = cs ++ rest ∧ (cs, v) ∈ literals := by
  obtain ⟨⟨cs, w⟩, hfind, heq⟩ := Option.map_eq_some_iff.mp h
  simp only [Prod.mk.injEq] at heq
  obtain ⟨rfl, rfl⟩ := heq
  have hpre := List.find?_some hfind
  obtain ⟨t, rfl⟩ := List.isPrefixOf_iff_prefix.mp hpre
  exact ⟨cs, by rw [List.drop_left], List.mem_of_find?_eq_some hfind⟩

theorem literal_complete {v : Value} {cs : List Char} (h : (cs, v) ∈ literals)
    (rest : List Char) : literal (cs ++ rest) = some (v, rest) := by
  simp only [literals, List.mem_cons, Prod.mk.injEq, List.not_mem_nil, or_false] at h
  rcases h with ⟨rfl, rfl⟩ | ⟨rfl, rfl⟩ | ⟨rfl, rfl⟩ | ⟨rfl, rfl⟩ | ⟨rfl, rfl⟩ | ⟨rfl, rfl⟩
  · rfl
  · rfl
  · rfl
  · rfl
  · rfl
  · rfl

/-- No name of a value begins a number. -/
theorem literal_number {v : Value} {cs : List Char} (h : Number v cs) (rest : List Char) :
    literal (cs ++ rest) = none := by
  have hdigit : ∀ {i tail : List Char}, Whole i → literal (i ++ tail) = none := by
    intro i tail hi
    obtain ⟨d, ds, rfl, hd⟩ := hi.head
    have hne : ∀ c : Char, isDigit c = false → c ≠ d := by
      rintro c hc rfl
      rw [hc] at hd
      cases hd
    simp [literal, literals, hne 'n' (by decide), hne 't' (by decide), hne 'f' (by decide),
      hne 'N' (by decide), hne 'I' (by decide), hne '-' (by decide)]
  cases h with
  | positive hi _ _ =>
      rw [List.append_assoc]
      exact hdigit hi
  | negative hi _ _ =>
      obtain ⟨d, ds, rfl, hd⟩ := hi.head
      have hne : ('I' : Char) ≠ d := by
        rintro rfl
        exact absurd hd (by decide)
      simp [literal, literals, hne]

/-- A value begins with a character that is neither white space nor a closing bracket. -/
def Opens (c : Char) : Prop := isSpace c = false ∧ c ≠ ']' ∧ c ≠ '}'

/-- A scalar begins with no bracket. -/
def Starts (c : Char) : Prop := Opens c ∧ c ≠ '[' ∧ c ≠ '{'

/-- A reader and the grammar of what it reads: what it takes is an element, an element that a
delimiter follows is taken whole, and an element begins with more than white space. -/
structure Reads {α : Type} (read : Reader α) (Elem : α → List Char → Prop) : Prop where
  sound : ∀ {text a rest}, read text = .ok (a, rest) → ∃ cs, text = cs ++ rest ∧ Elem a cs
  complete : ∀ {a cs} rest, Elem a cs → Delimited rest → read (cs ++ rest) = .ok (a, rest)
  opens : ∀ {a cs}, Elem a cs → ∃ c ds, cs = c :: ds ∧ Opens c

theorem starts_digit {d : Char} (hd : isDigit d = true) : Starts d := by
  have hne : ∀ c : Char, isDigit c = false → d ≠ c := by
    rintro c hc rfl
    rw [hc] at hd
    cases hd
  refine ⟨⟨?_, hne ']' (by decide), hne '}' (by decide)⟩, hne '[' (by decide),
    hne '{' (by decide)⟩
  simp only [isSpace, hne ' ' (by decide), hne '\t' (by decide), hne '\n' (by decide),
    hne '\r' (by decide)]
  decide

theorem starts_of {c : Char} (h : c ∈ ['n', 't', 'f', 'N', 'I', '-', '"']) : Starts c := by
  simp only [List.mem_cons, List.not_mem_nil, or_false] at h
  rcases h with rfl | rfl | rfl | rfl | rfl | rfl | rfl
  · exact ⟨⟨by decide, by decide, by decide⟩, by decide, by decide⟩
  · exact ⟨⟨by decide, by decide, by decide⟩, by decide, by decide⟩
  · exact ⟨⟨by decide, by decide, by decide⟩, by decide, by decide⟩
  · exact ⟨⟨by decide, by decide, by decide⟩, by decide, by decide⟩
  · exact ⟨⟨by decide, by decide, by decide⟩, by decide, by decide⟩
  · exact ⟨⟨by decide, by decide, by decide⟩, by decide, by decide⟩
  · exact ⟨⟨by decide, by decide, by decide⟩, by decide, by decide⟩

theorem scalar_starts {v : Value} {cs : List Char} (h : Scalar v cs) :
    ∃ c ds, cs = c :: ds ∧ Starts c := by
  cases h with
  | literal h =>
      simp only [literals, List.mem_cons, Prod.mk.injEq, List.not_mem_nil, or_false] at h
      rcases h with ⟨rfl, rfl⟩ | ⟨rfl, rfl⟩ | ⟨rfl, rfl⟩ | ⟨rfl, rfl⟩ | ⟨rfl, rfl⟩ | ⟨rfl, rfl⟩
      · exact ⟨'n', _, rfl, starts_of (by simp)⟩
      · exact ⟨'t', _, rfl, starts_of (by simp)⟩
      · exact ⟨'f', _, rfl, starts_of (by simp)⟩
      · exact ⟨'N', _, rfl, starts_of (by simp)⟩
      · exact ⟨'I', _, rfl, starts_of (by simp)⟩
      · exact ⟨'-', _, rfl, starts_of (by simp)⟩
  | number h =>
      cases h with
      | positive hi _ _ =>
          obtain ⟨d, ds, rfl, hd⟩ := hi.head
          exact ⟨d, _, rfl, starts_digit hd⟩
      | negative _ _ _ => exact ⟨'-', _, rfl, starts_of (by simp)⟩
  | str _ => exact ⟨'"', _, rfl, starts_of (by simp)⟩

theorem literal_ne_quote {v : Value} {cs : List Char} (h : (cs, v) ∈ literals) (rest text) :
    cs ++ rest ≠ '"' :: text := by
  simp only [literals, List.mem_cons, Prod.mk.injEq, List.not_mem_nil, or_false] at h
  rcases h with ⟨rfl, rfl⟩ | ⟨rfl, rfl⟩ | ⟨rfl, rfl⟩ | ⟨rfl, rfl⟩ | ⟨rfl, rfl⟩ | ⟨rfl, rfl⟩
  · simp
  · simp
  · simp
  · simp
  · simp
  · simp

theorem number_ne_quote {v : Value} {cs : List Char} (h : Number v cs) (rest text) :
    cs ++ rest ≠ '"' :: text := by
  cases h with
  | positive hi _ _ =>
      obtain ⟨d, ds, rfl, hd⟩ := hi.head
      intro heq
      obtain ⟨rfl, -⟩ := List.cons.inj heq
      exact absurd hd (by decide)
  | negative _ _ _ => simp

theorem reads_scalar : Reads scalar Scalar where
  sound := by
    intro text v rest h
    unfold scalar at h
    split at h
    · split at h
      · rename_i ps r hps
        cases h
        obtain ⟨cs, rfl, hcs⟩ := pieces_sound hps
        exact ⟨_, by simp, .str hcs⟩
      · cases h
    · split at h
      · rename_i r hr
        cases h
        obtain ⟨cs, hcs, hmem⟩ := literal_sound hr
        exact ⟨cs, hcs, .literal hmem⟩
      · split at h
        · rename_i r hr
          cases h
          obtain ⟨cs, hcs, hnum⟩ := number_sound hr
          exact ⟨cs, hcs, .number hnum⟩
        · cases h
  complete := by
    intro v cs rest h hrest
    cases h with
    | literal h =>
        rw [scalar]
        · rw [literal_complete h]
        · exact fun text => literal_ne_quote h rest text
    | number h =>
        rw [scalar]
        · rw [literal_number h, number_complete h hrest]
        · exact fun text => number_ne_quote h rest text
    | @str ps cs h =>
        have happ : '"' :: (cs ++ ['"']) ++ rest = '"' :: (cs ++ '"' :: rest) := by simp
        rw [happ, scalar, pieces_complete h rest]
  opens := by
    intro v cs h
    obtain ⟨c, ds, hcs, hc⟩ := scalar_starts h
    exact ⟨c, ds, hcs, hc.1⟩

/-! ### Arrays and objects -/

section

variable {α : Type}

/-- Elements with commas between them, up to the closing bracket. -/
inductive Separated (Elem : α → List Char → Prop) : List α → List Char → Prop
  | one {a : α} {cs w : List Char} (h : Elem a cs) (hw : Blank w) : Separated Elem [a] (cs ++ w)
  | more {a : α} {as : List α} {cs w w' ds : List Char} (h : Elem a cs) (hw : Blank w)
      (hw' : Blank w') (t : Separated Elem as ds) :
      Separated Elem (a :: as) (cs ++ (w ++ ',' :: (w' ++ ds)))

/-- The inside of brackets. -/
inductive Listed (Elem : α → List Char → Prop) : List α → List Char → Prop
  | empty {w : List Char} (hw : Blank w) : Listed Elem [] w
  | elements {as : List α} {w cs : List Char} (hw : Blank w) (h : Separated Elem as cs) :
      Listed Elem as (w ++ cs)

/-- At most one element for each unit of fuel. -/
def separated (read : Reader α) (close : Char) : Nat → Reader (List α)
  | 0, _ => .error .malformed
  | fuel + 1, text => do
    let (a, text) ← read text
    match skip text with
    | [] => .error .malformed
    | c :: text =>
      if c = close then .ok ([a], text)
      else if c = ',' then do
        let (as, text) ← separated read close fuel (skip text)
        .ok (a :: as, text)
      else .error .malformed

/-- Every element takes a character, so a text is fuel enough for itself. -/
def listed (read : Reader α) (close : Char) (text : List Char) :
    Except Failure (List α × List Char) :=
  match skip text with
  | [] => .error .malformed
  | c :: text =>
    if c = close then .ok ([], text)
    else separated read close (text.length + 1) (c :: text)

theorem bind_ok {β γ : Type} {x : Except Failure β} {f : β → Except Failure γ} {r : γ}
    (h : x >>= f = .ok r) : ∃ b, x = .ok b ∧ f b = .ok r := by
  cases x with
  | error e => cases h
  | ok b => exact ⟨b, rfl, h⟩

variable {read : Reader α} {Elem : α → List Char → Prop} (hread : Reads read Elem)
include hread

theorem separated_sound {close : Char} (fuel : Nat) {text rest : List Char} {as : List α}
    (h : separated read close fuel text = .ok (as, rest)) :
    ∃ cs, text = cs ++ close :: rest ∧ Separated Elem as cs := by
  induction fuel generalizing text as with
  | zero => cases h
  | succ fuel ih =>
      rw [separated] at h
      obtain ⟨⟨a, text'⟩, hfirst, hnext⟩ := bind_ok h
      obtain ⟨cs, rfl, hcs⟩ := hread.sound hfirst
      obtain ⟨w, hw, htext⟩ := skip_split text'
      simp only at hnext
      split at hnext
      · cases hnext
      · rename_i c text'' hskip
        rw [hskip] at htext
        split at hnext
        · rename_i hclose
          cases hnext
          exact ⟨cs ++ w, by rw [htext, hclose, List.append_assoc], .one hcs hw⟩
        · split at hnext
          · rename_i hcomma
            obtain ⟨⟨bs, r⟩, hmore, hlast⟩ := bind_ok hnext
            cases hlast
            obtain ⟨ds, hds, hsep⟩ := ih hmore
            obtain ⟨w', hw', htext'⟩ := skip_split text''
            refine ⟨cs ++ (w ++ ',' :: (w' ++ ds)), ?_, .more hcs hw hw' hsep⟩
            rw [htext, htext', hds, hcomma]
            simp
          · cases hnext

theorem Separated.opens {as : List α} {cs : List Char} (h : Separated Elem as cs) :
    ∃ c ds, cs = c :: ds ∧ Opens c := by
  cases h with
  | one h _ =>
      obtain ⟨c, ds, rfl, hc⟩ := hread.opens h
      exact ⟨c, _, rfl, hc⟩
  | more h _ _ _ =>
      obtain ⟨c, ds, rfl, hc⟩ := hread.opens h
      exact ⟨c, _, rfl, hc⟩

theorem separated_complete {close : Char} (hclose : Ends close) (hspace : isSpace close = false)
    (hcomma : close ≠ ',') {as : List α} {cs : List Char} (h : Separated Elem as cs)
    (rest : List Char) {fuel : Nat} (hfuel : cs.length ≤ fuel) :
    separated read close fuel (cs ++ close :: rest) = .ok (as, rest) := by
  induction h generalizing fuel with
  | @one a cs w h hw =>
      have hpos : 0 < cs.length := by
        obtain ⟨c, ds, rfl, -⟩ := hread.opens h
        simp
      have hdel := delimited_append hw (delimited_cons hclose rest)
      cases fuel with
      | zero =>
          rw [List.length_append] at hfuel
          omega
      | succ fuel =>
          rw [separated, List.append_assoc, hread.complete _ h hdel]
          simp only [bind, Except.bind]
          rw [skip_append hw, skip_cons hspace]
          simp
  | @more a as cs w w' ds h hw hw' t ih =>
      have hcommaEnds : Ends ',' := ⟨by decide, by decide, by decide, by decide⟩
      have happ : cs ++ (w ++ ',' :: (w' ++ ds)) ++ close :: rest =
          cs ++ (w ++ ',' :: (w' ++ (ds ++ close :: rest))) := by simp
      have hdel := delimited_append hw (delimited_cons hcommaEnds (w' ++ (ds ++ close :: rest)))
      obtain ⟨c, es, rfl, hc⟩ := Separated.opens hread t
      cases fuel with
      | zero => simp at hfuel
      | succ fuel =>
          have hlen : (c :: es).length ≤ fuel := by
            simp only [List.length_append, List.length_cons] at hfuel ⊢
            omega
          rw [separated, happ, hread.complete _ h hdel]
          simp only [bind, Except.bind]
          rw [skip_append hw, skip_cons (by decide)]
          simp only [if_neg (Ne.symm hcomma), if_true]
          rw [skip_append hw', List.cons_append, skip_cons hc.1, ← List.cons_append, ih hlen]

theorem listed_sound {close : Char} {text rest : List Char} {as : List α}
    (h : listed read close text = .ok (as, rest)) :
    ∃ cs, text = cs ++ close :: rest ∧ Listed Elem as cs := by
  obtain ⟨w, hw, htext⟩ := skip_split text
  rw [listed] at h
  split at h
  · cases h
  · rename_i c text' hskip
    rw [hskip] at htext
    split at h
    · rename_i hclose
      cases h
      exact ⟨w, by rw [htext, hclose], .empty hw⟩
    · obtain ⟨cs, hcs, hsep⟩ := separated_sound hread _ h
      exact ⟨w ++ cs, by rw [htext, hcs, List.append_assoc], .elements hw hsep⟩

theorem listed_complete {close : Char} (hclose : close = ']' ∨ close = '}') {as : List α}
    {cs : List Char} (h : Listed Elem as cs) (rest : List Char) :
    listed read close (cs ++ close :: rest) = .ok (as, rest) := by
  have hends : Ends close := by
    rcases hclose with rfl | rfl
    · exact ⟨by decide, by decide, by decide, by decide⟩
    · exact ⟨by decide, by decide, by decide, by decide⟩
  have hspace : isSpace close = false := by
    rcases hclose with rfl | rfl
    · decide
    · decide
  have hcomma : close ≠ ',' := by
    rcases hclose with rfl | rfl
    · decide
    · decide
  cases h with
  | empty hw =>
      rw [listed, skip_append hw, skip_cons hspace]
      simp
  | @elements as w cs hw h =>
      obtain ⟨c, ds, rfl, hc⟩ := Separated.opens hread h
      have hne : c ≠ close := by
        rcases hclose with rfl | rfl
        · exact hc.2.1
        · exact hc.2.2
      rw [listed, List.append_assoc, skip_append hw, List.cons_append, skip_cons hc.1]
      simp only
      rw [if_neg hne, ← List.cons_append]
      exact separated_complete hread hends hspace hcomma h rest (by simp)

end

/-- A name, a colon and a value. -/
inductive Member (Inner : Value → List Char → Prop) : List Nat × Value → List Char → Prop
  | mk {ps : List Piece} {ks w w' cs : List Char} {v : Value} (hk : Pieces ps ks)
      (hw : Blank w) (hw' : Blank w') (hv : Inner v cs) :
      Member Inner (join ps, v) ('"' :: (ks ++ '"' :: (w ++ ':' :: (w' ++ cs))))

def member (read : Reader Value) : Reader (List Nat × Value)
  | '"' :: text =>
    match pieces text with
    | none => .error .malformed
    | some (ps, text) =>
      match skip text with
      | ':' :: text => do
        let (v, text) ← read (skip text)
        .ok ((join ps, v), text)
      | _ => .error .malformed
  | _ => .error .malformed

theorem reads_member {read : Reader Value} {Inner : Value → List Char → Prop}
    (hread : Reads read Inner) : Reads (member read) (Member Inner) where
  sound := by
    intro text m rest h
    unfold member at h
    split at h
    · rename_i text'
      split at h
      · cases h
      · rename_i ps text'' hps
        split at h
        · rename_i text3 hskip
          obtain ⟨⟨v, r⟩, hval, h⟩ := bind_ok h
          cases h
          obtain ⟨ks, rfl, hks⟩ := pieces_sound hps
          obtain ⟨w, hw, hw2⟩ := skip_split text''
          obtain ⟨w', hw', hw3⟩ := skip_split text3
          obtain ⟨cs, hcs, hv⟩ := hread.sound hval
          refine ⟨_, ?_, .mk hks hw hw' hv⟩
          rw [hw2, hskip, hw3, hcs]
          simp
        · cases h
    · cases h
  complete := by
    intro m cs rest h hrest
    cases h with
    | @mk ps ks w w' cs v hk hw hw' hv =>
        obtain ⟨c, ds, rfl, hc⟩ := hread.opens hv
        have happ : '"' :: (ks ++ '"' :: (w ++ ':' :: (w' ++ c :: ds))) ++ rest =
            '"' :: (ks ++ '"' :: (w ++ ':' :: (w' ++ c :: (ds ++ rest)))) := by simp
        have hval := hread.complete rest hv hrest
        rw [List.cons_append] at hval
        rw [happ, member, pieces_complete hk]
        simp only
        rw [skip_append hw, skip_cons (by decide)]
        simp only
        rw [skip_append hw', skip_cons hc.1, hval]
        rfl
  opens := by
    intro m cs h
    cases h with
    | mk _ _ _ _ => exact ⟨'"', _, rfl, by decide, by decide, by decide⟩

/-! ### Documents -/

/-- A value whose inner values are written as `Inner` says. -/
inductive Layer (accepts : List (List Nat × Value) → Bool) (Inner : Value → List Char → Prop) :
    Value → List Char → Prop
  | scalar {v : Value} {cs : List Char} (h : Scalar v cs) : Layer accepts Inner v cs
  | arr {items : List Value} {cs : List Char} (h : Listed Inner items cs) :
      Layer accepts Inner (.arr items) ('[' :: (cs ++ [']']))
  | obj {members : List (List Nat × Value)} {cs : List Char}
      (h : Listed (Member Inner) members cs) (ha : accepts members = true) :
      Layer accepts Inner (.obj members) ('{' :: (cs ++ ['}']))

/-- A value nested in at most so many levels, with every object accepted. -/
def Text (accepts : List (List Nat × Value) → Bool) : Nat → Value → List Char → Prop
  | 0 => Scalar
  | n + 1 => Layer accepts (Text accepts n)

def layer (accepts : List (List Nat × Value) → Bool) (read : Reader Value) : Reader Value
  | '[' :: text => do
    let (items, text) ← listed read ']' text
    .ok (.arr items, text)
  | '{' :: text => do
    let (members, text) ← listed (member read) '}' text
    if accepts members then .ok (.obj members, text) else .error .refused
  | text => scalar text

/-- The reader of a value, with so many levels left. -/
def value (accepts : List (List Nat × Value) → Bool) : Nat → Reader Value
  | 0, '[' :: _ => .error .nested
  | 0, '{' :: _ => .error .nested
  | 0, text => scalar text
  | n + 1, text => layer accepts (value accepts n) text

/-- A scalar is read as one, whatever else the reader would read. -/
theorem layer_scalar (accepts : List (List Nat × Value) → Bool) (read : Reader Value)
    {c : Char} (hc : Starts c) (text : List Char) :
    layer accepts read (c :: text) = scalar (c :: text) := by
  rw [layer]
  · intro _ hbad
    exact hc.2.1 (List.cons.inj hbad).1
  · intro _ hbad
    exact hc.2.2 (List.cons.inj hbad).1

theorem reads_layer {accepts : List (List Nat × Value) → Bool} {read : Reader Value}
    {Inner : Value → List Char → Prop} (hread : Reads read Inner) :
    Reads (layer accepts read) (Layer accepts Inner) where
  sound := by
    intro text v rest h
    unfold layer at h
    split at h
    · obtain ⟨⟨items, r⟩, hitems, hlast⟩ := bind_ok h
      cases hlast
      obtain ⟨cs, rfl, hcs⟩ := listed_sound hread hitems
      exact ⟨_, by simp, .arr hcs⟩
    · obtain ⟨⟨members, r⟩, hmembers, hlast⟩ := bind_ok h
      simp only at hlast
      split at hlast
      · rename_i ha
        cases hlast
        obtain ⟨cs, rfl, hcs⟩ := listed_sound (reads_member hread) hmembers
        exact ⟨_, by simp, .obj hcs ha⟩
      · cases hlast
    · obtain ⟨cs, hcs, hscalar⟩ := reads_scalar.sound h
      exact ⟨cs, hcs, .scalar hscalar⟩
  complete := by
    intro v cs rest h hrest
    cases h with
    | scalar h =>
        obtain ⟨c, ds, rfl, hc⟩ := scalar_starts h
        rw [List.cons_append, layer_scalar accepts read hc, ← List.cons_append]
        exact reads_scalar.complete rest h hrest
    | @arr items cs h =>
        have happ : '[' :: (cs ++ [']']) ++ rest = '[' :: (cs ++ ']' :: rest) := by simp
        rw [happ, layer, listed_complete hread (.inl rfl) h]
        rfl
    | @obj members cs h ha =>
        have happ : '{' :: (cs ++ ['}']) ++ rest = '{' :: (cs ++ '}' :: rest) := by simp
        rw [happ, layer, listed_complete (reads_member hread) (.inr rfl) h]
        simp only [bind, Except.bind]
        rw [if_pos ha]
  opens := by
    intro v cs h
    cases h with
    | scalar h =>
        obtain ⟨c, ds, hcs, hc⟩ := scalar_starts h
        exact ⟨c, ds, hcs, hc.1⟩
    | arr _ => exact ⟨'[', _, rfl, by decide, by decide, by decide⟩
    | obj _ _ => exact ⟨'{', _, rfl, by decide, by decide, by decide⟩

/-- **The reader of a value is its grammar**, level by level. -/
theorem reads_value (accepts : List (List Nat × Value) → Bool) (n : Nat) :
    Reads (value accepts n) (Text accepts n) := by
  induction n with
  | zero =>
      refine ⟨?_, ?_, reads_scalar.opens⟩
      · intro text v rest h
        unfold value at h
        split at h
        · cases h
        · cases h
        · exact reads_scalar.sound h
        · rename_i hbad
          cases hbad
      · intro v cs rest h hrest
        obtain ⟨c, ds, rfl, hc⟩ := scalar_starts h
        rw [List.cons_append, value, ← List.cons_append]
        · exact reads_scalar.complete rest h hrest
        · intro _ hbad
          exact hc.2.1 (List.cons.inj hbad).1
        · intro _ hbad
          exact hc.2.2 (List.cons.inj hbad).1
  | succ n ih =>
      have hlayer := @reads_layer accepts _ _ ih
      exact ⟨fun h => hlayer.sound h, fun rest h => hlayer.complete rest h, hlayer.opens⟩

/-- A document: a value between white space. -/
def Document (accepts : List (List Nat × Value) → Bool) (levels : Nat) (v : Value)
    (text : List Char) : Prop :=
  ∃ w cs w', Blank w ∧ Text accepts levels v cs ∧ Blank w' ∧ text = w ++ (cs ++ w')

/-- `json.loads` with `levels` levels of recursion left. -/
def parse (accepts : List (List Nat × Value) → Bool) (levels : Nat) (text : List Char) :
    Except Failure Value := do
  let (v, rest) ← value accepts levels (skip text)
  if skip rest = [] then .ok v else .error .malformed

theorem skip_blank {w : List Char} (hw : Blank w) : skip w = [] := by
  rw [← List.append_nil w, skip_append hw]
  rfl

theorem blank_of_skip {w : List Char} (h : skip w = []) : Blank w := by
  obtain ⟨w', hw', hsplit⟩ := skip_split w
  rw [h, List.append_nil] at hsplit
  rw [hsplit]
  exact hw'

/-- **The reader is the grammar**: it reads exactly the documents, as what they stand for. -/
theorem parse_iff {accepts : List (List Nat × Value) → Bool} {levels : Nat} {text : List Char}
    {v : Value} : parse accepts levels text = .ok v ↔ Document accepts levels v text := by
  have hread := reads_value accepts levels
  constructor
  · intro h
    obtain ⟨⟨v', rest⟩, hval, hlast⟩ := bind_ok h
    simp only at hlast
    split at hlast
    · rename_i hrest
      cases hlast
      obtain ⟨w, hw, htext⟩ := skip_split text
      obtain ⟨cs, hcs, hv⟩ := hread.sound hval
      exact ⟨w, cs, rest, hw, hv, blank_of_skip hrest, by rw [← hcs]; exact htext⟩
    · cases hlast
  · rintro ⟨w, cs, w', hw, hv, hw', rfl⟩
    obtain ⟨c, ds, rfl, hc⟩ := hread.opens hv
    have hdel : Delimited w' := by
      rw [← List.append_nil w']
      exact delimited_append hw' delimited_nil
    have hval := hread.complete w' hv hdel
    rw [List.cons_append] at hval
    rw [parse, skip_append hw, List.cons_append, skip_cons hc.1, hval]
    simp only [bind, Except.bind]
    rw [if_pos (skip_blank hw')]

/-! ### Flat documents -/

section

variable {accepts : List (List Nat × Value) → Bool}

theorem Scalar.text {v : Value} {cs : List Char} (h : Scalar v cs) (n : Nat) :
    Text accepts n v cs := by
  cases n with
  | zero => exact h
  | succ n => exact .scalar h

/-- A value that is neither a list nor an object. -/
def IsScalar (v : Value) : Prop := (∀ items, v ≠ .arr items) ∧ ∀ members, v ≠ .obj members

theorem isScalar_int (n : Int) : IsScalar (.int n) :=
  ⟨by simp, by simp⟩

theorem isScalar_str (s : List Nat) : IsScalar (.str s) :=
  ⟨by simp, by simp⟩

theorem isScalar_numeral (negative : Bool) (i tail : List Char) :
    IsScalar (numeral negative i tail) := by
  unfold numeral
  split
  · exact isScalar_int _
  · exact ⟨by simp, by simp⟩

theorem Scalar.isScalar {v : Value} {cs : List Char} (h : Scalar v cs) : IsScalar v := by
  cases h with
  | literal h =>
      simp only [literals, List.mem_cons, Prod.mk.injEq, List.not_mem_nil, or_false] at h
      rcases h with ⟨-, rfl⟩ | ⟨-, rfl⟩ | ⟨-, rfl⟩ | ⟨-, rfl⟩ | ⟨-, rfl⟩ | ⟨-, rfl⟩
      · exact ⟨by simp, by simp⟩
      · exact ⟨by simp, by simp⟩
      · exact ⟨by simp, by simp⟩
      · exact ⟨by simp, by simp⟩
      · exact ⟨by simp, by simp⟩
      · exact ⟨by simp, by simp⟩
  | number h =>
      cases h with
      | positive _ _ _ => exact isScalar_numeral _ _ _
      | negative _ _ _ => exact isScalar_numeral _ _ _
  | str _ => exact isScalar_str _

theorem Text.scalar {n : Nat} {v : Value} {cs : List Char} (h : Text accepts n v cs)
    (hv : IsScalar v) : Scalar v cs := by
  cases n with
  | zero => exact h
  | succ n =>
      cases h with
      | scalar h => exact h
      | arr _ => exact absurd rfl (hv.1 _)
      | obj _ _ => exact absurd rfl (hv.2 _)

theorem Separated.imp {α : Type} {Elem Elem' : α → List Char → Prop} {as : List α}
    {cs : List Char} (h : Separated Elem as cs) (himp : ∀ a ∈ as, ∀ cs, Elem a cs → Elem' a cs) :
    Separated Elem' as cs := by
  induction h with
  | one h hw => exact .one (himp _ List.mem_cons_self _ h) hw
  | more h hw hw' _ ih =>
      exact .more (himp _ List.mem_cons_self _ h) hw hw'
        (ih fun a ha => himp a (List.mem_cons_of_mem _ ha))

theorem Listed.imp {α : Type} {Elem Elem' : α → List Char → Prop} {as : List α}
    {cs : List Char} (h : Listed Elem as cs) (himp : ∀ a ∈ as, ∀ cs, Elem a cs → Elem' a cs) :
    Listed Elem' as cs := by
  cases h with
  | empty hw => exact .empty hw
  | elements hw h => exact .elements hw (h.imp himp)

/-- An object of scalars is read however few levels of nesting are left inside it. -/
theorem Document.flat {n : Nat} {members : List (List Nat × Value)} {text : List Char}
    (h : Document accepts n (.obj members) text) (hscalar : ∀ m ∈ members, IsScalar m.2)
    (m : Nat) : Document accepts (m + 1) (.obj members) text := by
  obtain ⟨w, cs, w', hw, hcs, hw', rfl⟩ := h
  refine ⟨w, cs, w', hw, ?_, hw', rfl⟩
  cases n with
  | zero => exact absurd rfl ((Scalar.isScalar hcs).2 members)
  | succ n =>
      cases hcs with
      | scalar h => exact absurd rfl (h.isScalar.2 members)
      | obj h ha =>
          refine .obj (h.imp fun m hm cs hmember => ?_) ha
          cases hmember with
          | mk hk hw hw' hv => exact .mk hk hw hw' ((Text.scalar hv (hscalar _ hm)).text _)

end

end JsonGrammar
