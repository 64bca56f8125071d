import KzHome.Lib.PyText

/-!
# KzHome.Lib.PyLines

The lines of a text, as Python takes them: `splitlines` ends a line at more characters than a
reader of a file does, for whom only `'\n'` does.

**What a line of the file holds, `splitlines` has as a line of its own**, up to white space, as long
as it has no line break inside (`strip_mem_splitlines`).

The last section is `split` at a separator, which `join` undoes.
-/

namespace PyText

/-! ### White space at the ends -/

section
variable {p : Char → Bool}

/-- `text.rstrip(...)` of the characters that `p` takes. -/
def rstrip (p : Char → Bool) (text : List Char) : List Char :=
  (text.reverse.dropWhile p).reverse

/-- No character that `p` takes stands at either end. -/
def Trimmed (p : Char → Bool) (text : List Char) : Prop :=
  (∀ c ∈ text.head?, p c = false) ∧ ∀ c ∈ text.getLast?, p c = false

theorem rstrip_append {ws : List Char} (h : ∀ c ∈ ws, p c = true) (text : List Char) :
    rstrip p (text ++ ws) = rstrip p text := by
  have hws : ∀ c ∈ ws.reverse, p c = true := fun c hc => h c (List.mem_reverse.mp hc)
  rw [rstrip, List.reverse_append, List.dropWhile_append_of_pos hws, rstrip]

theorem rstrip_self {text : List Char} (h : ∀ c ∈ text.getLast?, p c = false) :
    rstrip p text = text := by
  induction text using List.reverseRecOn with
  | nil => rfl
  | append_singleton text c _ =>
      have hc : p c = false := h c (by simp)
      rw [rstrip, List.reverse_append, List.reverse_singleton, List.singleton_append,
        dropWhile_none hc]
      simp

/-- What `rstrip` takes away, and what it leaves. -/
theorem rstrip_spec (p : Char → Bool) (text : List Char) :
    (∃ ws, text = rstrip p text ++ ws ∧ ∀ c ∈ ws, p c = true) ∧
      ∀ c ∈ (rstrip p text).getLast?, p c = false := by
  induction text using List.reverseRecOn with
  | nil => exact ⟨⟨[], rfl, by simp⟩, by simp [rstrip]⟩
  | append_singleton text c ih =>
      cases hc : p c with
      | true =>
          obtain ⟨⟨ws, htext, hws⟩, hlast⟩ := ih
          have hone : rstrip p (text ++ [c]) = rstrip p text := rstrip_append (by simp [hc]) text
          rw [hone]
          refine ⟨⟨ws ++ [c], ?_, ?_⟩, hlast⟩
          · rw [← List.append_assoc, ← htext]
          · simp only [List.mem_append, List.mem_singleton]
            rintro d (hd | rfl)
            · exact hws d hd
            · exact hc
      | false =>
          have hlast : ∀ d ∈ (text ++ [c]).getLast?, p d = false := by simp [hc]
          rw [rstrip_self hlast]
          exact ⟨⟨[], by simp, by simp⟩, hlast⟩

theorem strip_eq_rstrip (text : List Char) : strip p text = rstrip p (text.dropWhile p) := rfl

theorem strip_pad {ws ws' text : List Char} (hws : ∀ c ∈ ws, p c = true)
    (hws' : ∀ c ∈ ws', p c = true) (htrim : Trimmed p text) :
    strip p (ws ++ text ++ ws') = text := by
  rw [strip_eq_rstrip, List.append_assoc, List.dropWhile_append_of_pos hws]
  cases text with
  | nil =>
      rw [List.nil_append, List.dropWhile_eq_nil_iff.mpr hws']
      rfl
  | cons c text =>
      have hc : p c = false := htrim.1 c (by simp)
      rw [List.cons_append, dropWhile_none hc, ← List.cons_append, rstrip_append hws',
        rstrip_self htrim.2]

/-- What `strip` takes away, and what it leaves. -/
theorem strip_spec (p : Char → Bool) (text : List Char) :
    (∃ ws ws', text = ws ++ strip p text ++ ws' ∧ (∀ c ∈ ws, p c = true) ∧
      ∀ c ∈ ws', p c = true) ∧ Trimmed p (strip p text) := by
  obtain ⟨⟨ws', hdrop, hws'⟩, hlast⟩ := rstrip_spec p (text.dropWhile p)
  have htext : text = text.takeWhile p ++ strip p text ++ ws' := by
    rw [List.append_assoc, strip_eq_rstrip, ← hdrop, List.takeWhile_append_dropWhile]
  refine ⟨⟨_, ws', htext, fun c hc => ?_, hws'⟩, fun c hc => ?_, hlast⟩
  · exact List.mem_takeWhile_imp hc
  · -- the first character is where `dropWhile` has stopped
    rw [Option.mem_def] at hc
    have hhead : (text.dropWhile p).head? = some c := by
      rw [hdrop, ← strip_eq_rstrip, List.head?_append, hc]
      rfl
    have hstop := List.head?_dropWhile_not p text
    rw [hhead] at hstop
    simpa using hstop

theorem strip_idem {text : List Char} (h : Trimmed p text) : strip p text = text := by
  have hpad := @strip_pad p [] [] text (by simp) (by simp) h
  simpa using hpad

/-- White space after a line is no part of what is left of it. -/
theorem strip_snoc {c : Char} (hc : p c = true) (text : List Char) :
    strip p (text ++ [c]) = strip p text := by
  obtain ⟨⟨ws, ws', htext, hws, hws'⟩, htrim⟩ := strip_spec p text
  have hmore : ∀ d ∈ ws' ++ [c], p d = true := by
    simp only [List.mem_append, List.mem_singleton]
    rintro d (hd | rfl)
    · exact hws' d hd
    · exact hc
  calc strip p (text ++ [c])
      = strip p (ws ++ strip p text ++ (ws' ++ [c])) := by
        rw [← List.append_assoc, ← htext]
    _ = strip p text := strip_pad hws hmore htrim

end

/-! ### Lines -/

/-- The characters at which `splitlines` ends a line. -/
def isBreak (c : Char) : Bool :=
  let n := c.toNat
  (10 ≤ n && n ≤ 13) || (28 ≤ n && n ≤ 30) || n = 133 || n = 8232 || n = 8233

/-- `text.splitlines()` -/
def splitlines : List Char → List (List Char)
  | [] => []
  | '\r' :: '\n' :: text => [] :: splitlines text
  | c :: text =>
    if isBreak c then [] :: splitlines text
    else match splitlines text with
      | [] => [[c]]
      | line :: lines => (c :: line) :: lines

/-- The text of a file that was opened with universal newlines. -/
def universal : List Char → List Char
  | [] => []
  | '\r' :: '\n' :: text => '\n' :: universal text
  | c :: text => (if c = '\r' then '\n' else c) :: universal text

theorem universal_id {text : List Char} (h : '\r' ∉ text) : universal text = text := by
  fun_induction universal text with
  | case1 => rfl
  | case2 text => exact absurd List.mem_cons_self h
  | case3 c text _ ih =>
      have hc : c ≠ '\r' := fun heq => h (heq ▸ List.mem_cons_self)
      rw [if_neg hc, ih fun hmem => h (List.mem_cons_of_mem c hmem)]

theorem not_mem_universal (text : List Char) : '\r' ∉ universal text := by
  fun_induction universal text with
  | case1 => simp
  | case2 text ih => simpa using ih
  | case3 c text _ ih =>
      rw [List.mem_cons, not_or]
      refine ⟨?_, ih⟩
      split
      · decide
      · rename_i hc
        exact fun heq => hc heq.symm

/-- Line breaks are white space. -/
theorem isSpace_of_isBreak {c : Char} (h : isBreak c = true) : isSpace c = true := by
  simp only [isBreak, isSpace, Bool.or_eq_true, Bool.and_eq_true, decide_eq_true_eq] at h ⊢
  omega

theorem splitlines_break {c : Char} {text : List Char} (hc : isBreak c = true)
    (hn : c = '\r' → text.head? ≠ some '\n') :
    splitlines (c :: text) = [] :: splitlines text := by
  rw [splitlines]
  · rw [if_pos hc]
  · rintro rest rfl rfl
    exact hn rfl rfl

theorem splitlines_crlf (text : List Char) :
    splitlines ('\r' :: '\n' :: text) = splitlines ('\n' :: text) := by
  have hlf : splitlines ('\n' :: text) = [] :: splitlines text :=
    splitlines_break (by decide) fun h => absurd h (by decide)
  rw [hlf, splitlines]

theorem splitlines_plain {c : Char} {text : List Char} (hc : isBreak c = false) :
    splitlines (c :: text) =
      (c :: (splitlines text).headD []) :: (splitlines text).tail := by
  rw [splitlines]
  · rw [hc]
    cases splitlines text with
    | nil => rfl
    | cons line lines => rfl
  · rintro rest rfl
    cases hc

/-- **A line break ends all that was before it**: what follows has its lines among those of the
text. -/
theorem splitlines_suffix {k : Char} {text : List Char} (hk : isBreak k = true)
    (hn : text.head? ≠ some '\n') (init : List Char) :
    splitlines text <:+ (splitlines (init ++ k :: text)).tail := by
  induction init with
  | nil =>
      rw [List.nil_append, splitlines_break hk fun _ => hn]
      exact List.suffix_rfl
  | cons c init ih =>
      rw [List.cons_append]
      cases hc : isBreak c with
      | false => rwa [splitlines_plain hc]
      | true =>
          by_cases hcr : c = '\r' ∧ (init ++ k :: text).head? = some '\n'
          · -- two characters that end one line
            obtain ⟨rfl, hhead⟩ := hcr
            obtain ⟨rest, hrest⟩ := List.head?_eq_some_iff.mp hhead
            rw [hrest] at ih ⊢
            rwa [splitlines_crlf]
          · rw [splitlines_break hc fun hr hhead => hcr ⟨hr, hhead⟩]
            exact ih.trans (List.tail_suffix _)

/-- Up to its first line break a text is a line. -/
theorem splitlines_head {line text : List Char} (hline : ∀ c ∈ line, isBreak c = false)
    (htext : ∀ c ∈ text.head?, isBreak c = true) :
    (splitlines (line ++ text)).headD [] = line := by
  induction line with
  | nil =>
      cases text with
      | nil => rfl
      | cons c text =>
          have hc : isBreak c = true := htext c rfl
          rw [List.nil_append]
          by_cases hcr : c = '\r' ∧ text.head? = some '\n'
          · obtain ⟨rfl, hhead⟩ := hcr
            obtain ⟨rest, rfl⟩ := List.head?_eq_some_iff.mp hhead
            rw [splitlines]
            rfl
          · rw [splitlines_break hc fun hr hhead => hcr ⟨hr, hhead⟩]
            rfl
  | cons c line ih =>
      rw [List.cons_append, splitlines_plain (hline c List.mem_cons_self), List.headD_cons,
        ih fun d hd => hline d (List.mem_cons_of_mem c hd)]

/-- What stands between two line breaks is a line. -/
theorem mem_splitlines {init line rest : List Char} (hinit : ∀ c ∈ init.getLast?, isBreak c = true)
    (hne : line ≠ []) (hline : ∀ c ∈ line, isBreak c = false)
    (hrest : ∀ c ∈ rest.head?, isBreak c = true) :
    line ∈ splitlines (init ++ (line ++ rest)) := by
  obtain ⟨c, line, rfl⟩ := List.exists_cons_of_ne_nil hne
  have hc : isBreak c = false := hline c List.mem_cons_self
  have hfirst : c :: line ∈ splitlines (c :: line ++ rest) := by
    have htail := splitlines_head (fun d hd => hline d (List.mem_cons_of_mem c hd)) hrest
    rw [List.cons_append, splitlines_plain hc, htail]
    exact List.mem_cons_self
  induction init using List.reverseRecOn with
  | nil => exact hfirst
  | append_singleton init k _ =>
      have hk : isBreak k = true := hinit k (by simp)
      have hhead : (c :: line ++ rest).head? ≠ some '\n' := by
        rintro hhead
        cases hhead
        cases hc
      rw [List.append_assoc, List.singleton_append]
      exact List.mem_of_mem_tail ((splitlines_suffix hk hhead init).subset hfirst)

/-! ### The lines of a file -/

/-- One more character on the last line. -/
theorem splitOn_snoc {k c : Char} (hc : c ≠ k) (text : List Char) :
    ∃ lines line, text.splitOn k = lines ++ [line] ∧
      (text ++ [c]).splitOn k = lines ++ [line ++ [c]] := by
  induction text with
  | nil =>
      refine ⟨[], [], rfl, ?_⟩
      rw [List.nil_append, List.splitOn_cons_eq_if_modifyHead]
      simp [hc]
  | cons d text ih =>
      obtain ⟨lines, line, htext, hmore⟩ := ih
      rw [List.cons_append, List.splitOn_cons_eq_if_modifyHead, List.splitOn_cons_eq_if_modifyHead,
        htext, hmore]
      cases hd : d == k with
      | true => exact ⟨[] :: lines, line, rfl, rfl⟩
      | false =>
          cases lines with
          | nil => exact ⟨[], d :: line, rfl, rfl⟩
          | cons first lines => exact ⟨(d :: first) :: lines, line, rfl, rfl⟩

/-- Where a line stands in the text that is made of them. -/
theorem mem_intercalate {k : Char} {line : List Char} {lines : List (List Char)}
    (h : line ∈ lines) : ∃ init rest, [k].intercalate lines = init ++ (line ++ rest) ∧
      (∀ c ∈ init.getLast?, c = k) ∧ ∀ c ∈ rest.head?, c = k := by
  induction lines with
  | nil => cases h
  | cons first lines ih =>
      cases lines with
      | nil =>
          rw [List.mem_singleton] at h
          exact ⟨[], [], by simp [h], by simp, by simp⟩
      | cons second lines =>
          rw [List.intercalate_cons_of_ne_nil (List.cons_ne_nil second lines)]
          rcases List.mem_cons.mp h with rfl | h
          · refine ⟨[], [k] ++ [k].intercalate (second :: lines), ?_, by simp, by simp⟩
            rw [List.nil_append, List.append_assoc]
          · obtain ⟨init, rest, htext, hinit, hrest⟩ := ih h
            refine ⟨first ++ [k] ++ init, rest, ?_, ?_, hrest⟩
            · rw [htext, List.append_assoc (first ++ [k])]
            · intro c hc
              rw [Option.mem_def, List.getLast?_append] at hc
              cases hlast : init.getLast? with
              | none =>
                  rw [hlast] at hc
                  simpa using hc.symm
              | some d =>
                  rw [hlast] at hc
                  exact hinit c (hlast.trans hc)

theorem mem_splitOn {k : Char} {line text : List Char} (h : line ∈ text.splitOn k) :
    ∃ init rest, text = init ++ (line ++ rest) ∧ (∀ c ∈ init.getLast?, c = k) ∧
      ∀ c ∈ rest.head?, c = k := by
  have hspec := mem_intercalate (k := k) h
  rwa [List.intercalate_splitOn] at hspec

/-- A text up to its last line break, and what is left. -/
theorem exists_last_break (text : List Char) :
    ∃ init rest, text = init ++ rest ∧ (∀ c ∈ init.getLast?, isBreak c = true) ∧
      ∀ c ∈ rest, isBreak c = false := by
  obtain ⟨⟨rest, htext, hrest⟩, hlast⟩ := rstrip_spec (fun c => !isBreak c) text
  exact ⟨_, rest, htext, by simpa using hlast, by simpa using hrest⟩

/-- A text up to its first line break, and what is left. -/
theorem exists_first_break (text : List Char) :
    ∃ init rest, text = init ++ rest ∧ (∀ c ∈ init, isBreak c = false) ∧
      ∀ c ∈ rest.head?, isBreak c = true := by
  refine ⟨text.takeWhile fun c => !isBreak c, text.dropWhile fun c => !isBreak c,
    List.takeWhile_append_dropWhile.symm, fun c hc => ?_, fun c hc => ?_⟩
  · simpa using List.mem_takeWhile_imp hc
  · have hstop := List.head?_dropWhile_not (fun c => !isBreak c) text
    rw [Option.mem_def] at hc
    rw [hc] at hstop
    simpa using hstop

/-- **What a line of the file holds, `splitlines` has as a line of its own**, up to white space. -/
theorem strip_mem_splitlines {line text : List Char} (h : line ∈ text.splitOn '\n')
    (hne : strip isSpace line ≠ []) (hline : ∀ c ∈ strip isSpace line, isBreak c = false) :
    ∃ other ∈ splitlines text, strip isSpace other = strip isSpace line := by
  obtain ⟨before, after, rfl, hbefore, hafter⟩ := mem_splitOn h
  obtain ⟨⟨ws, ws', hpad, hws, hws'⟩, htrim⟩ := strip_spec isSpace line
  obtain ⟨p, w, rfl, hp, hw⟩ := exists_last_break ws
  obtain ⟨w', q, rfl, hw', hq⟩ := exists_first_break ws'
  generalize strip isSpace line = body at *
  subst hpad
  refine ⟨w ++ body ++ w', ?_, strip_pad (fun c hc => hws c (List.mem_append_right p hc))
    (fun c hc => hws' c (List.mem_append_left q hc)) htrim⟩
  have htext : before ++ (p ++ w ++ body ++ (w' ++ q) ++ after) =
      (before ++ p) ++ ((w ++ body ++ w') ++ (q ++ after)) := by simp
  rw [htext]
  apply mem_splitlines
  · -- the break before the line: one of the white space, or the end of the line before
    intro c hc
    rw [Option.mem_def, List.getLast?_append] at hc
    cases hlast : p.getLast? with
    | none =>
        rw [hlast, Option.none_or] at hc
        rw [hbefore c hc]
        rfl
    | some d =>
        rw [hlast] at hc
        exact hp c (hlast.trans hc)
  · simp [hne]
  · simp only [List.mem_append]
    rintro c ((hc | hc) | hc)
    · exact hw c hc
    · exact hline c hc
    · exact hw' c hc
  · intro c hc
    rw [Option.mem_def, List.head?_append] at hc
    cases hhead : q.head? with
    | none =>
        rw [hhead, Option.none_or] at hc
        rw [hafter c hc]
        rfl
    | some d =>
        rw [hhead] at hc
        exact hq c (hhead.trans hc)

/-! ### Parts between separators -/

/-- `text.split(sep)` -/
def split (sep : Char) (text : String) : List String := (text.toList.splitOn sep).map String.ofList

section
variable {sep : Char}

/-- A text without the separator is one part. -/
theorem split_none {text : String} (h : sep ∉ text.toList) : split sep text = [text] := by
  rw [split, List.splitOn_eq_singleton h, List.map_singleton, String.ofList_toList]

theorem split_append (a b : String) :
    split sep (a ++ String.singleton sep ++ b) = split sep a ++ split sep b := by
  have htext : (a ++ String.singleton sep ++ b).toList = a.toList ++ sep :: b.toList := by simp
  rw [split, htext, List.splitOn_append_cons_self, List.map_append, split, split]

/-- **`sep.join(text.split(sep))` is the text.** -/
theorem intercalate_split (text : String) :
    (String.singleton sep).intercalate (split sep text) = text := by
  rw [← String.toList_inj, String.toList_intercalate, split, List.map_map]
  have hid : String.toList ∘ String.ofList = id := funext fun l => String.toList_ofList
  rw [hid, List.map_id, String.toList_singleton, List.intercalate_splitOn]

end

end PyText
