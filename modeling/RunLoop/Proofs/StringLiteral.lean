import Mathlib.Data.List.Basic
import RunLoop.Proofs.LiteralText

/-!
# What a string literal denotes

A string literal is a text between quotes, with escapes or without, that denotes another text. The
grammar is given here as relations between what is written, what it denotes and what follows; they
do not mention how a literal is read. A string has one value, and the strings of the grammar are
what the reader of literals takes for strings.

* `Literal.Escape` is what stands behind a backslash.
* `Literal.Spelled` is a text with escapes up to its closing quote, `Literal.RawSpelled` one
  without.
* `Literal.Denotes` is a string literal with its value and its suffix.
* `Literal.Denotes.unique`: a literal has one value.
* `Literal.rest?_of_denotes`, `Literal.exists_denotes`: the strings of the grammar are the literals
  that begin as strings do.
-/

namespace RunLoop.Attribute.Literal

/-! ## The grammar -/

/-- The letters behind a backslash, and the characters that they stand for. -/
def escapes : List (Char × Char) :=
  [('n', '\n'), ('r', '\r'), ('t', '\t'), ('0', '\x00'), ('\\', '\\'), ('\'', '\''), ('"', '"')]

/-- The number that hexadecimal digits write behind those of `n`. -/
def hexNumber (n : Nat) (digits : List Nat) : Nat :=
  digits.foldl (fun n d => 16 * n + d) n

/-- Digits that write the code point of a character, behind `count` digits that write `value`: six
at most in all. Lines may stand among them, but not in front of all. -/
structure CodePoint (value count : Nat) (text : List Char) (c : Char) : Prop where
  first : count = 0 → text.head? ≠ some '_'
  digits : ∃ digits : List Nat, (text.filter (· ≠ '_')).map hexValue? = digits.map some ∧
    0 < count + digits.length ∧ count + digits.length ≤ 6 ∧ hexNumber value digits = c.toNat

/-- White space behind an escaped line break, all of it, and what follows. -/
inductive Gap : List Char → List Char → Prop where
  | here {rest : List Char} (h : ∀ c ∈ rest.head?, c ∉ [' ', '\t', '\n', '\r']) : Gap rest rest
  | blank {c : Char} {cs rest : List Char} (hc : c ∈ [' ', '\t', '\n']) (h : Gap cs rest) :
      Gap (c :: cs) rest
  | lineEnd {cs rest : List Char} (h : Gap cs rest) : Gap ('\r' :: '\n' :: cs) rest

/-- What stands behind a backslash, the characters that it denotes and what follows. -/
inductive Escape : List Char → List Char → List Char → Prop where
  | letter {a c : Char} {rest : List Char} (h : (a, c) ∈ escapes) : Escape (a :: rest) [c] rest
  | ascii {a b c : Char} {m n : Nat} {rest : List Char} (ha : hexValue? a = some m)
      (hb : hexValue? b = some n) (hc : 16 * m + n = c.toNat) (hlow : c.toNat < 0x80) :
      Escape ('x' :: a :: b :: rest) [c] rest
  | code {c : Char} {text rest : List Char} (h : CodePoint 0 0 text c) :
      Escape ('u' :: '\x7b' :: (text ++ '\x7d' :: rest)) [c] rest
  /-- A line break that is escaped denotes nothing, and neither does the white space behind it. -/
  | gap {c : Char} {cs rest : List Char} (hc : c = '\n' ∨ c = '\r') (h : Gap (c :: cs) rest) :
      Escape (c :: cs) [] rest

/-- A text with escapes up to its closing quote, what it denotes and what follows. A line break is
one character, however it is written. -/
inductive Spelled : List Char → List Char → List Char → Prop where
  | close {rest : List Char} : Spelled ('"' :: rest) [] rest
  | self {c : Char} {cs v rest : List Char} (hc : c ∉ ['"', '\\', '\r']) (h : Spelled cs v rest) :
      Spelled (c :: cs) (c :: v) rest
  | lineEnd {cs v rest : List Char} (h : Spelled cs v rest) :
      Spelled ('\r' :: '\n' :: cs) ('\n' :: v) rest
  | escape {cs cs' v v' rest : List Char} (he : Escape cs v cs') (h : Spelled cs' v' rest) :
      Spelled ('\\' :: cs) (v ++ v') rest

/-- A text without escapes up to the quote that `hashes` follow, what it denotes and what follows.
A line break is one character, however it is written. -/
inductive RawSpelled (hashes : List Char) : List Char → List Char → List Char → Prop where
  | close {rest : List Char} : RawSpelled hashes ('"' :: (hashes ++ rest)) [] rest
  | self {c : Char} {cs v rest : List Char} (hquote : c = '"' → ¬ hashes <+: cs) (hc : c ≠ '\r')
      (h : RawSpelled hashes cs v rest) : RawSpelled hashes (c :: cs) (c :: v) rest
  | lineEnd {cs v rest : List Char} (h : RawSpelled hashes cs v rest) :
      RawSpelled hashes ('\r' :: '\n' :: cs) ('\n' :: v) rest

/-- A suffix is an identifier, or nothing. -/
def IsSuffix (cs : List Char) : Prop :=
  cs = [] ∨ restOfIdentifier? cs = some []

/-- A string literal, with escapes or raw, the text that it denotes and its suffix. -/
inductive Denotes : List Char → List Char → List Char → Prop where
  | quoted {cs v suffix : List Char} (h : Spelled cs v suffix) (hs : IsSuffix suffix) :
      Denotes ('"' :: cs) v suffix
  | raw {n : Nat} {cs v suffix : List Char} (hn : n ≤ 255)
      (h : RawSpelled (List.replicate n '#') cs v suffix) (hs : IsSuffix suffix) :
      Denotes ('r' :: (List.replicate n '#' ++ '"' :: cs)) v suffix

/-! ## The grammar is not ambiguous -/

section

variable {c c' : Char} {cs cs' rest rest' text text' v v' hashes suffix suffix' : List Char}

/-- A text is cut in one way at the first place of a character. -/
theorem cut_unique (hc : c ∉ text) (hc' : c ∉ text')
    (h : text ++ c :: rest = text' ++ c :: rest') : text = text' ∧ rest = rest' := by
  induction text generalizing text' with
  | nil =>
    cases text' with
    | nil => exact ⟨rfl, (List.cons.inj h).2⟩
    | cons d text' => simp [(List.cons.inj h).1] at hc'
  | cons d text ih =>
    cases text' with
    | nil => simp [← (List.cons.inj h).1] at hc
    | cons d' text' =>
      obtain ⟨rfl, htail⟩ := List.cons.inj h
      obtain ⟨rfl, rfl⟩ := ih (List.not_mem_of_not_mem_cons hc)
        (List.not_mem_of_not_mem_cons hc') htail
      exact ⟨rfl, rfl⟩

theorem CodePoint.notMem {value count : Nat} (h : CodePoint value count text c) :
    '\x7d' ∉ text := by
  intro hmem
  obtain ⟨digits, hdigits, -⟩ := h.digits
  have hmem' : '\x7d' ∈ text.filter (· ≠ '_') := List.mem_filter.mpr ⟨hmem, by decide⟩
  have hvalue : hexValue? '\x7d' ∈ digits.map some := hdigits ▸ List.mem_map_of_mem hmem'
  obtain ⟨n, -, hn⟩ := List.mem_map.mp hvalue
  exact absurd hn (by simp [show hexValue? '\x7d' = none from rfl])

theorem CodePoint.unique {value count : Nat} (h : CodePoint value count text c)
    (h' : CodePoint value count text c') : c = c' := by
  obtain ⟨digits, hdigits, -, -, hc⟩ := h.digits
  obtain ⟨digits', hdigits', -, -, hc'⟩ := h'.digits
  have hsame : digits.map some = digits'.map some := hdigits.symm.trans hdigits'
  obtain rfl := List.map_inj_right (fun _ _ => Option.some.inj) |>.mp hsame
  exact Char.toNat_inj.mp (hc.symm.trans hc')

theorem Gap.unique (h : Gap cs rest) (h' : Gap cs rest') : rest = rest' := by
  induction h with
  | here h =>
    cases h' with
    | here => rfl
    | blank hc => exact absurd (List.mem_append_left ['\r'] hc) (h _ rfl)
    | lineEnd => exact absurd (by simp) (h '\r' rfl)
  | blank hc _ ih =>
    cases h' with
    | here h => exact absurd (List.mem_append_left ['\r'] hc) (h _ rfl)
    | blank _ h => exact ih h
    | lineEnd => simp at hc
  | lineEnd _ ih =>
    cases h' with
    | here h => exact absurd (by simp) (h '\r' rfl)
    | blank hc => simp at hc
    | lineEnd h => exact ih h

/-- One letter stands for one character, and none for what begins another kind of escape. -/
theorem escapes_unique {a : Char} (h : (a, c) ∈ escapes) :
    a ∉ ['x', 'u', '\n', '\r'] ∧ ∀ c', (a, c') ∈ escapes → c = c' := by
  have hall : ∀ p ∈ escapes, p.1 ∉ ['x', 'u', '\n', '\r'] ∧
      ∀ q ∈ escapes, p.1 = q.1 → p.2 = q.2 := by decide
  obtain ⟨hother, hsame⟩ := hall _ h
  exact ⟨hother, fun c' h' => hsame _ h' rfl⟩

theorem Escape.unique (h : Escape cs v rest) (h' : Escape cs v' rest') :
    v = v' ∧ rest = rest' := by
  cases h with
  | letter h =>
    obtain ⟨hother, hsame⟩ := escapes_unique h
    cases h' with
    | letter h' => exact ⟨by rw [hsame _ h'], rfl⟩
    | ascii => simp at hother
    | code => simp at hother
    | gap hc => rcases hc with rfl | rfl <;> simp at hother
  | ascii ha hb hc =>
    cases h' with
    | letter h' => exact absurd (escapes_unique h').1 (by simp)
    | ascii ha' hb' hc' =>
      obtain rfl := Option.some.inj (ha.symm.trans ha')
      obtain rfl := Option.some.inj (hb.symm.trans hb')
      exact ⟨by rw [Char.toNat_inj.mp (hc.symm.trans hc')], rfl⟩
    | gap hc => simp at hc
  | code h =>
    generalize htext : _ ++ '\x7d' :: rest = tail at h'
    cases h' with
    | letter h' => exact absurd (escapes_unique h').1 (by simp)
    | code h' =>
      obtain ⟨rfl, rfl⟩ := cut_unique h.notMem h'.notMem htext
      exact ⟨by rw [h.unique h'], rfl⟩
    | gap hc => simp at hc
  | gap hc h =>
    cases h' with
    | letter h' => rcases hc with rfl | rfl <;> exact absurd (escapes_unique h').1 (by simp)
    | ascii => simp at hc
    | code => simp at hc
    | gap _ h' => exact ⟨rfl, h.unique h'⟩

theorem Spelled.unique (h : Spelled cs v rest) (h' : Spelled cs v' rest') :
    v = v' ∧ rest = rest' := by
  induction h generalizing v' with
  | close =>
    cases h' with
    | close => exact ⟨rfl, rfl⟩
    | self hc => simp at hc
  | self hc _ ih =>
    cases h' with
    | close => simp at hc
    | self _ h' =>
      obtain ⟨rfl, rfl⟩ := ih h'
      exact ⟨rfl, rfl⟩
    | lineEnd => simp at hc
    | escape => simp at hc
  | lineEnd _ ih =>
    cases h' with
    | self hc => simp at hc
    | lineEnd h' =>
      obtain ⟨rfl, rfl⟩ := ih h'
      exact ⟨rfl, rfl⟩
  | escape he _ ih =>
    cases h' with
    | self hc => simp at hc
    | escape he' h' =>
      obtain ⟨rfl, rfl⟩ := he.unique he'
      obtain ⟨rfl, rfl⟩ := ih h'
      exact ⟨rfl, rfl⟩

theorem RawSpelled.unique (h : RawSpelled hashes cs v rest) (h' : RawSpelled hashes cs v' rest') :
    v = v' ∧ rest = rest' := by
  induction h generalizing v' with
  | close =>
    generalize htext : hashes ++ _ = tail at h'
    cases h' with
    | close => exact ⟨rfl, List.append_cancel_left htext⟩
    | self hquote => exact (hquote rfl (htext ▸ List.prefix_append ..)).elim
  | self hquote hc _ ih =>
    cases h' with
    | close => exact (hquote rfl (List.prefix_append ..)).elim
    | self _ _ h' =>
      obtain ⟨rfl, rfl⟩ := ih h'
      exact ⟨rfl, rfl⟩
    | lineEnd => exact (hc rfl).elim
  | lineEnd _ ih =>
    cases h' with
    | self _ hc => exact (hc rfl).elim
    | lineEnd h' =>
      obtain ⟨rfl, rfl⟩ := ih h'
      exact ⟨rfl, rfl⟩

/-- A string literal has one value. -/
theorem Denotes.unique (h : Denotes cs v suffix) (h' : Denotes cs v' suffix') :
    v = v' ∧ suffix = suffix' := by
  cases h with
  | quoted h =>
    cases h' with
    | quoted h' => exact h.unique h'
  | @raw n _ _ _ _ h =>
    generalize htext : List.replicate n '#' ++ _ = tail at h'
    cases h' with
    | @raw n' _ _ _ _ h' =>
      have hnotMem (n : Nat) : '"' ∉ List.replicate n '#' := by simp
      obtain ⟨hn, rfl⟩ := cut_unique (hnotMem n) (hnotMem n') htext
      obtain rfl : n = n' := by simpa using congrArg List.length hn
      exact h.unique h'

end

/-! ## What is written by the grammar is read -/

section

variable {c : Char} {cs cs' rest text v hashes suffix : List Char}

theorem isCodePoint_toNat (c : Char) : isCodePoint c.toNat = true := by
  have hvalid : c.toNat < 0xd800 ∨ 0xdfff < c.toNat ∧ c.toNat < 0x110000 := c.valid
  simp only [isCodePoint, Bool.or_eq_true, decide_eq_true_eq, Bool.and_eq_true]
  omega

theorem restOfQuoted?_code {value count : Nat} (h : CodePoint value count text c)
    (cs : List Char) : restOfQuoted? .text (.code value count) (text ++ '\x7d' :: cs) =
      restOfQuoted? .text .plain cs := by
  induction text generalizing value count with
  | nil =>
    obtain ⟨-, digits, hdigits, hpos, -, hc⟩ := h
    obtain rfl : digits = [] := by simpa using hdigits.symm
    have hvalue : isCodePoint value = true := by
      have hcode : value = c.toNat := hc
      rw [hcode]
      exact isCodePoint_toNat c
    have hcount : count ≠ 0 := by simpa using Nat.pos_iff_ne_zero.mp hpos
    have hbrace : hexValue? '\x7d' = none := rfl
    simp [restOfQuoted?, Place.next?, Place.ofCode?, hbrace, hcount, hvalue, Place.canEnd]
  | cons d text ih =>
    obtain ⟨hfirst, digits, hdigits, hpos, hlen, hc⟩ := h
    by_cases hd : d = '_'
    · subst hd
      have hcount : count ≠ 0 := fun h => hfirst h rfl
      have hline : hexValue? '_' = none := rfl
      have hrest : CodePoint value count text c :=
        ⟨fun h => absurd h hcount, digits, by simpa using hdigits, hpos, hlen, hc⟩
      simpa [restOfQuoted?, Place.next?, Place.ofCode?, hline, hcount] using ih hrest
    · rw [List.filter_cons_of_pos (by simpa using hd)] at hdigits
      cases digits with
      | nil => simp at hdigits
      | cons n digits =>
        obtain ⟨hn, hdigits⟩ := List.cons.inj hdigits
        have hquote : hexValue? '"' = none := rfl
        have hne : d ≠ '"' := by
          rintro rfl
          simp [hquote] at hn
        rw [List.length_cons] at hpos hlen
        have hcount : count ≠ 6 := by omega
        have hrest : CodePoint (16 * value + n) (count + 1) text c :=
          ⟨by simp, digits, hdigits, by omega, by omega, hc⟩
        simpa [restOfQuoted?, Place.next?, Place.ofCode?, hn, hcount, hne] using ih hrest

/-- White space behind an escaped line break is passed over. -/
theorem restOfQuoted?_gap (h : Gap cs rest) :
    restOfQuoted? .text .gap cs = restOfQuoted? .text .plain rest := by
  induction h with
  | @here rest h =>
    cases rest with
    | nil => rfl
    | cons c rest =>
      have hc := h c rfl
      simp only [List.mem_cons, List.not_mem_nil, or_false, not_or] at hc
      simp [restOfQuoted?, Place.next?, Place.ofGap?, hc, Place.canEnd]
  | @blank c cs rest hc _ ih =>
    have hquote : c ≠ '"' := by
      rintro rfl
      simp at hc
    have hblank : c = ' ' ∨ c = '\t' ∨ c = '\n' := by simpa using hc
    simpa [restOfQuoted?, Place.next?, Place.ofGap?, hquote, hblank, or_assoc] using ih
  | lineEnd _ ih => simpa [restOfQuoted?, Place.next?, Place.ofGap?] using ih

theorem restOfQuoted?_escape (h : Escape cs v rest) :
    restOfQuoted? .text .escape cs = restOfQuoted? .text .plain rest := by
  cases h with
  | @letter a c _ h =>
    have hall : ∀ p ∈ escapes, Place.ofEscape? .text p.1 = some .plain := by decide
    simp [restOfQuoted?, Place.canEnd, Place.next?, hall _ h]
  | @ascii a b c m n _ ha hb hc hlow =>
    have hm : ¬ 8 ≤ m := by omega
    simp [restOfQuoted?, Place.canEnd, Place.next?, Place.ofEscape?, Place.ofHexFirst?,
      Place.ofHexSecond?, ha, hb, hm]
  | code h =>
    have hcode := restOfQuoted?_code h rest
    simpa [restOfQuoted?, Place.canEnd, Place.next?, Place.ofEscape?] using hcode
  | gap hc h =>
    have hgap := restOfQuoted?_gap h
    rcases hc with rfl | rfl
    · simpa [restOfQuoted?, Place.canEnd, Place.next?, Place.ofEscape?, Place.ofGap?] using hgap
    · simpa [restOfQuoted?, Place.canEnd, Place.next?, Place.ofEscape?, Place.ofGap?] using hgap

theorem restOfQuoted?_of_spelled (h : Spelled cs v rest) :
    restOfQuoted? .text .plain cs = some rest := by
  induction h with
  | close => rfl
  | self hc _ ih =>
    simp only [List.mem_cons, List.not_mem_nil, or_false, not_or] at hc
    simpa [restOfQuoted?, Place.next?, Place.ofPlain?, hc, Content.allows] using ih
  | lineEnd _ ih => simpa [restOfQuoted?, Place.next?, Place.ofPlain?] using ih
  | escape he _ ih =>
    have hescape := restOfQuoted?_escape he
    simpa [restOfQuoted?, Place.next?, Place.ofPlain?, hescape] using ih

theorem restOfRaw?_of_rawSpelled (h : RawSpelled hashes cs v rest) :
    restOfRaw? .text hashes false cs = some rest := by
  induction h with
  | close => simp [restOfRaw?]
  | @self c cs v rest hquote hc _ ih =>
    have hopen : ¬ (c = '"' ∧ hashes <+: cs) := fun h => hquote h.1 h.2
    simpa [restOfRaw?, hopen, hc, Content.allows] using ih
  | lineEnd _ ih => simpa [restOfRaw?] using ih

end

/-! ## What is read is written by the grammar -/

section

variable {cs rest hashes : List Char}

theorem hexValue?_lt {c : Char} {n : Nat} (h : hexValue? c = some n) : n < 16 := by
  have hnine : '9'.toNat = '0'.toNat + 9 := rfl
  have hlower : 'f'.toNat = 'a'.toNat + 5 := rfl
  have hupper : 'F'.toNat = 'A'.toNat + 5 := rfl
  unfold hexValue? at h
  split at h
  · rename_i hdigit
    cases h
    have hle := (Char.isDigit_iff_toNat.mp hdigit).2
    omega
  · split at h
    · rename_i hrange
      cases h
      have hle : c.toNat ≤ 'f'.toNat :=
        UInt32.le_iff_toNat_le.mp (of_decide_eq_true (Bool.and_eq_true_iff.mp hrange).2)
      omega
    · obtain ⟨hrange, heq⟩ := Option.ite_none_right_eq_some.mp h
      cases heq
      have hle : c.toNat ≤ 'F'.toNat :=
        UInt32.le_iff_toNat_le.mp (of_decide_eq_true (Bool.and_eq_true_iff.mp hrange).2)
      omega

theorem exists_toNat {n : Nat} (h : isCodePoint n = true) : ∃ c : Char, c.toNat = n := by
  have hvalid : n.isValidChar := by
    simp only [isCodePoint, Bool.or_eq_true, decide_eq_true_eq, Bool.and_eq_true] at h
    unfold Nat.isValidChar
    omega
  exact ⟨Char.ofNatAux n hvalid, rfl⟩

/-- What is read of a code point is digits and a brace. -/
theorem exists_codePoint {value count : Nat} (hcount : count ≤ 6)
    (h : restOfQuoted? .text (.code value count) cs = some rest) :
    ∃ text c after, cs = text ++ '\x7d' :: after ∧ CodePoint value count text c := by
  induction cs generalizing value count with
  | nil => simp [restOfQuoted?] at h
  | cons d cs ih =>
    unfold restOfQuoted? at h
    rw [if_neg (by simp [Place.canEnd])] at h
    obtain ⟨p, hp, h⟩ := Option.bind_eq_some_iff.mp h
    simp only [Place.next?, Place.ofCode?] at hp
    split at hp
    · rename_i n hn
      obtain ⟨hne, heq⟩ := Option.ite_none_left_eq_some.mp hp
      cases heq
      obtain ⟨text, c, after, rfl, -, digits, hdigits, -, hlen, hc⟩ := ih (by omega) h
      have hd : d ≠ '_' := by
        rintro rfl
        simp [show hexValue? '_' = none from rfl] at hn
      refine ⟨d :: text, c, after, rfl, fun _ => by simpa using hd, n :: digits, ?_, ?_, ?_, hc⟩
      · rw [List.filter_cons_of_pos (by simpa using hd), List.map_cons, List.map_cons, hn, hdigits]
      · rw [List.length_cons]
        omega
      · rw [List.length_cons]
        omega
    · obtain ⟨hne, hp⟩ := Option.ite_none_left_eq_some.mp hp
      split at hp
      · rename_i hd
        cases hp
        obtain ⟨text, c, after, rfl, -, digits, hdigits, hpos, hlen, hc⟩ := ih hcount h
        refine ⟨d :: text, c, after, rfl, fun h0 => absurd h0 hne, digits, ?_, hpos, hlen, hc⟩
        rw [List.filter_cons_of_neg (by simpa using hd), hdigits]
      · obtain ⟨hbrace, -⟩ := Option.ite_none_right_eq_some.mp hp
        simp only [Bool.and_eq_true, decide_eq_true_eq] at hbrace
        obtain ⟨⟨rfl, hvalue⟩, -⟩ := hbrace
        obtain ⟨c, hc⟩ := exists_toNat hvalue
        exact ⟨[], c, cs, rfl, by simp, [], rfl, Nat.pos_of_ne_zero hne, hcount, hc.symm⟩

/-- White space behind an escaped line break comes to an end, also where a carriage return of it
was read. -/
theorem exists_gap :
    (restOfQuoted? .text .gap cs = some rest → ∃ after, Gap cs after) ∧
      (restOfQuoted? .text .gapCarriage cs = some rest → ∃ after, Gap ('\r' :: cs) after) := by
  induction cs with
  | nil => simp [restOfQuoted?]
  | cons c cs ih =>
    refine ⟨fun h => ?_, fun h => ?_⟩
    · by_cases hblank : c ∈ [' ', '\t', '\n']
      · have hquote : c ≠ '"' := by
          rintro rfl
          simp at hblank
        have hplace : Place.ofGap? .text c = some .gap :=
          if_pos (by simpa [or_assoc] using hblank)
        rw [restOfQuoted?, if_neg (by simp [hquote])] at h
        simp only [Place.next?, hplace, Option.bind_some] at h
        obtain ⟨after, hgap⟩ := ih.1 h
        exact ⟨after, .blank hblank hgap⟩
      · by_cases hreturn : c = '\r'
        · subst hreturn
          exact ih.2 (by simpa [restOfQuoted?, Place.next?, Place.ofGap?] using h)
        · refine ⟨c :: cs, .here fun d hd => ?_⟩
          cases hd
          simpa [hreturn] using hblank
    · by_cases hfeed : c = '\n'
      · subst hfeed
        obtain ⟨after, hgap⟩ := ih.1 (by simpa [restOfQuoted?, Place.canEnd, Place.next?] using h)
        exact ⟨after, .lineEnd hgap⟩
      · simp [restOfQuoted?, Place.canEnd, Place.next?, hfeed] at h

/-- What is read behind a backslash and an `x` is two digits. -/
theorem exists_ascii (h : restOfQuoted? .text .hexFirst cs = some rest) :
    ∃ c after, Escape ('x' :: cs) [c] after := by
  match cs with
  | [] => simp [restOfQuoted?] at h
  | [a] =>
    rw [restOfQuoted?, if_neg (by simp [Place.canEnd])] at h
    obtain ⟨p, -, h⟩ := Option.bind_eq_some_iff.mp h
    simp [restOfQuoted?] at h
  | a :: b :: cs =>
    rw [restOfQuoted?, if_neg (by simp [Place.canEnd])] at h
    obtain ⟨p, hp, h⟩ := Option.bind_eq_some_iff.mp h
    simp only [Place.next?, Place.ofHexFirst?] at hp
    split at hp
    · rename_i m hm
      obtain ⟨hlow, heq⟩ := Option.ite_none_left_eq_some.mp hp
      cases heq
      rw [restOfQuoted?, if_neg (by simp [Place.canEnd])] at h
      obtain ⟨q, hq, -⟩ := Option.bind_eq_some_iff.mp h
      simp only [Place.next?, Place.ofHexSecond?] at hq
      split at hq
      · rename_i n hn
        have hsum : 16 * m + n < 0x80 := by
          have := hexValue?_lt hn
          have hseven : ¬ 8 ≤ m := by simpa using hlow
          omega
        obtain ⟨c, hc⟩ := exists_toNat (n := 16 * m + n) (by simp [isCodePoint]; omega)
        exact ⟨c, cs, .ascii hm hn hc.symm (hc ▸ hsum)⟩
      · cases hq
    · cases hp

theorem exists_escape (h : restOfQuoted? .text .escape cs = some rest) :
    ∃ v after, Escape cs v after := by
  cases cs with
  | nil => simp [restOfQuoted?] at h
  | cons a cs =>
    rw [restOfQuoted?, if_neg (by simp [Place.canEnd])] at h
    obtain ⟨p, hp, h⟩ := Option.bind_eq_some_iff.mp h
    have hall : ∀ a ∈ ['n', 'r', 't', '\\', '\'', '"'], ∃ c, (a, c) ∈ escapes := by
      simp [escapes]
    simp only [Place.next?, Place.ofEscape?] at hp
    split at hp
    · rename_i ha
      obtain ⟨c, hc⟩ := hall a (List.contains_iff_mem.mp ha)
      exact ⟨[c], cs, .letter hc⟩
    split at hp
    · rename_i ha
      exact ⟨['\x00'], cs, .letter (by simp [ha, escapes])⟩
    split at hp
    · rename_i ha
      cases hp
      obtain ⟨c, after, hescape⟩ := exists_ascii h
      exact ⟨[c], after, ha ▸ hescape⟩
    split at hp
    · rename_i ha
      cases hp
      cases cs with
      | nil => simp [restOfQuoted?] at h
      | cons brace cs =>
        rw [restOfQuoted?, if_neg (by simp [Place.canEnd])] at h
        obtain ⟨q, hq, h⟩ := Option.bind_eq_some_iff.mp h
        obtain ⟨hbrace, heq⟩ := Option.ite_none_right_eq_some.mp hq
        cases heq
        obtain ⟨text, c, after, rfl, hcode⟩ := exists_codePoint (Nat.zero_le 6) h
        exact ⟨[c], after, by rw [ha, hbrace]; exact .code hcode⟩
    split at hp
    · rename_i ha
      cases hp
      obtain ⟨after, hgap⟩ := exists_gap.1 h
      exact ⟨[], after, .gap (.inl ha) (.blank (by simp [ha]) hgap)⟩
    · obtain ⟨ha, heq⟩ := Option.ite_none_right_eq_some.mp hp
      cases heq
      obtain ⟨after, hgap⟩ := exists_gap.2 h
      exact ⟨[], after, .gap (.inr ha) (ha ▸ hgap)⟩

theorem Gap.length_le {after : List Char} (h : Gap cs after) : after.length ≤ cs.length := by
  induction h with
  | here => exact Nat.le_refl _
  | blank _ _ ih => exact Nat.le_succ_of_le ih
  | lineEnd _ ih => exact Nat.le_succ_of_le (Nat.le_succ_of_le ih)

theorem Escape.length_le {v after : List Char} (h : Escape cs v after) :
    after.length ≤ cs.length := by
  cases h with
  | letter => simp
  | ascii => simp; omega
  | code => simp; omega
  | gap _ h => exact h.length_le

/-- What is read of a text up to its closing quote is spelled by the grammar. -/
theorem exists_spelled (h : restOfQuoted? .text .plain cs = some rest) :
    ∃ v, Spelled cs v rest := by
  -- An escape is more than one character long, so the induction is on the length of the text.
  induction hlen : cs.length using Nat.strongRecOn generalizing cs with
  | ind n ih =>
    cases cs with
    | nil => simp [restOfQuoted?] at h
    | cons c cs =>
      subst hlen
      by_cases hquote : c = '"'
      · subst hquote
        cases h
        exact ⟨[], .close⟩
      by_cases hslash : c = '\\'
      · subst hslash
        have hread : restOfQuoted? .text .escape cs = some rest := by
          simpa [restOfQuoted?, Place.next?, Place.ofPlain?] using h
        obtain ⟨v, after, hescape⟩ := exists_escape hread
        obtain ⟨v', hrest⟩ := ih after.length (Nat.lt_succ_of_le hescape.length_le)
          (restOfQuoted?_escape hescape ▸ hread) rfl
        exact ⟨v ++ v', .escape hescape hrest⟩
      by_cases hreturn : c = '\r'
      · subst hreturn
        cases cs with
        | nil => simp [restOfQuoted?, Place.next?, Place.ofPlain?] at h
        | cons d cs =>
          by_cases hfeed : d = '\n'
          · subst hfeed
            obtain ⟨v, hrest⟩ := ih cs.length (by simp only [List.length_cons]; omega)
              (by simpa [restOfQuoted?, Place.next?, Place.ofPlain?] using h) rfl
            exact ⟨'\n' :: v, .lineEnd hrest⟩
          · simp [restOfQuoted?, Place.next?, Place.ofPlain?, Place.canEnd, hfeed] at h
      · obtain ⟨v, hrest⟩ := ih cs.length (by simp)
          (by simpa [restOfQuoted?, Place.next?, Place.ofPlain?, hquote, hslash, hreturn,
            Content.allows] using h) rfl
        exact ⟨c :: v, .self (by simp [hquote, hslash, hreturn]) hrest⟩

theorem exists_rawSpelled {hashes : List Char} {carriage : Bool}
    (h : restOfRaw? .text hashes carriage cs = some rest) :
    ∃ v, RawSpelled hashes (if carriage then '\r' :: cs else cs) v rest := by
  induction cs generalizing carriage with
  | nil => cases carriage <;> simp [restOfRaw?] at h
  | cons c cs ih =>
    cases carriage with
    | true =>
      obtain ⟨hfeed, h⟩ := Option.ite_none_right_eq_some.mp h
      obtain ⟨v, hrest⟩ := ih h
      exact ⟨'\n' :: v, by rw [hfeed]; exact .lineEnd hrest⟩
    | false =>
      unfold restOfRaw? at h
      split at h
      · rename_i hclose
        cases h
        obtain ⟨hquote, hprefix⟩ := Bool.and_eq_true_iff.mp hclose
        obtain ⟨after, rfl⟩ := List.isPrefixOf_iff_prefix.mp hprefix
        obtain rfl := of_decide_eq_true hquote
        exact ⟨[], by simpa using RawSpelled.close⟩
      · rename_i hopen
        split at h
        · rename_i hreturn
          obtain ⟨v, hrest⟩ := ih h
          exact ⟨v, hreturn ▸ hrest⟩
        · rename_i hreturn
          have hnext : restOfRaw? .text hashes false cs = some rest := by
            simpa [Content.allows] using h
          obtain ⟨v, hrest⟩ := ih hnext
          refine ⟨c :: v, .self (fun hquote hprefix => hopen ?_) hreturn hrest⟩
          simpa [hquote] using hprefix

end

/-! ## Literals -/

section

variable {c : Char} {cs rest v suffix : List Char}

theorem restOfSuffix_eq_nil : restOfSuffix cs = [] ↔ IsSuffix cs := by
  unfold restOfSuffix IsSuffix
  cases hname : restOfIdentifier? cs with
  | none => simp
  | some rest =>
    have hcs : cs ≠ [] := by
      rintro rfl
      cases hname
    simp [hcs]

theorem restOfHashed?_replicate {n : Nat} (hn : n ≤ 255) (cs : List Char) :
    restOfHashed? .text (List.replicate n '#' ++ '"' :: cs) =
      restOfRaw? .text (List.replicate n '#') false cs := by
  have htake : (List.replicate n '#' ++ '"' :: cs).takeWhile (· = '#') = List.replicate n '#' := by
    simp
  have hdrop : (List.replicate n '#' ++ '"' :: cs).dropWhile (· = '#') = '"' :: cs := by
    simp
  simp only [restOfHashed?, htake, hdrop, List.length_replicate, if_pos hn]

/-- The strings of the grammar are literals. -/
theorem rest?_of_denotes (h : Denotes cs v suffix) : rest? cs = some [] := by
  cases h with
  | quoted h hs =>
    simp [rest?, restOfUnsuffixed?, restOfQuoted?_of_spelled h, restOfSuffix_eq_nil.mpr hs]
  | raw hn h hs =>
    simp [rest?, restOfUnsuffixed?, restOfHashed?_replicate hn, restOfRaw?_of_rawSpelled h,
      restOfSuffix_eq_nil.mpr hs]

/-- A literal that begins as a string does is one of the grammar. -/
theorem exists_denotes (hc : c = '"' ∨ c = 'r') (h : rest? (c :: cs) = some []) :
    ∃ v suffix, Denotes (c :: cs) v suffix := by
  cases hread : restOfUnsuffixed? (c :: cs) with
  | none =>
    have hdigit : c.isDigit = false := by rcases hc with rfl | rfl <;> decide
    rw [rest?_eq_none hdigit hread] at h
    cases h
  | some rest =>
    have hsuffix : IsSuffix rest := by
      rw [rest?, hread] at h
      exact restOfSuffix_eq_nil.mp (Option.some.inj h)
    rcases hc with rfl | rfl
    · obtain ⟨v, hv⟩ := exists_spelled hread
      exact ⟨v, rest, .quoted hv hsuffix⟩
    · change restOfHashed? .text cs = some rest at hread
      unfold restOfHashed? at hread
      dsimp only at hread
      split at hread
      · rename_i after hafter
        obtain ⟨hlen, hread⟩ := Option.ite_none_right_eq_some.mp hread
        obtain ⟨v, hv⟩ := exists_rawSpelled hread
        have hhashes : cs.takeWhile (· = '#') =
            List.replicate (cs.takeWhile (· = '#')).length '#' :=
          List.eq_replicate_of_mem fun d hd => by simpa using List.mem_takeWhile_imp hd
        have hcs := List.takeWhile_append_dropWhile (p := (· = '#')) (l := cs)
        rw [hafter, hhashes] at hcs
        rw [← hcs]
        exact ⟨v, rest, .raw hlen (hhashes ▸ hv) hsuffix⟩
      · cases hread

end

end RunLoop.Attribute.Literal
