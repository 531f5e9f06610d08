import RunLoop.Attribute.Token.Printer
import RunLoop.Proofs.TokenText

/-!
# Slashes

The two slashes that begin a comment are part of no token. So a text with such a comment in it has
more slashes than the tokens that are read from it, also where the comment documents something and
becomes an attribute. What is printed has the slashes of its tokens and no more: where tokens are
read back as they were, no comment is met.

* `Piece.chars_append_of_leaf?`: the text of a token is what was read of it.
* `Piece.slashesOf_scanWithin?`: the slashes of a text and of its pieces.
* `Piece.slashesIn_of_nestIn?`: pieces and the tokens made of them have the same slashes.
* `Piece.meetsLineComment_print`: tokens that are read back meet no comment.
-/

namespace RunLoop.Attribute

section

variable {cs rest : List Char}

/-! ## What follows a literal -/

theorem restOfIdentifier?_suffix (h : restOfIdentifier? cs = some rest) : rest <:+ cs := by
  cases cs with
  | nil => cases h
  | cons c cs =>
    simp only [restOfIdentifier?, Option.ite_none_right_eq_some, Option.some.injEq] at h
    obtain ⟨-, rfl⟩ := h
    exact (List.dropWhile_suffix _).trans (List.suffix_cons ..)

namespace Literal

theorem restOfSuffix_suffix (cs : List Char) : restOfSuffix cs <:+ cs := by
  unfold restOfSuffix
  cases h : restOfIdentifier? cs with
  | none => exact List.suffix_rfl
  | some rest => exact restOfIdentifier?_suffix h

theorem restOfQuoted?_suffix {k : Content} {p : Place} (h : restOfQuoted? k p cs = some rest) :
    rest <:+ cs := by
  induction cs generalizing p with
  | nil => cases h
  | cons c cs ih =>
    unfold restOfQuoted? at h
    split at h
    · cases h
      exact List.suffix_cons ..
    · obtain ⟨q, -, h⟩ := Option.bind_eq_some_iff.mp h
      exact (ih h).trans (List.suffix_cons ..)

theorem restOfRaw?_suffix {k : Content} {hashes : List Char} {carriage : Bool}
    (h : restOfRaw? k hashes carriage cs = some rest) : rest <:+ cs := by
  fun_induction restOfRaw? k hashes carriage cs with
    grind [List.suffix_cons_iff, List.drop_suffix]

theorem restOfHashed?_suffix {k : Content} (h : restOfHashed? k cs = some rest) :
    rest <:+ cs := by
  unfold restOfHashed? at h
  split at h
  · rename_i after hafter
    obtain ⟨-, h⟩ := Option.ite_none_right_eq_some.mp h
    have hquote := (List.suffix_cons '"' after).trans (hafter ▸ List.dropWhile_suffix _)
    exact (restOfRaw?_suffix h).trans hquote
  · cases h

theorem restOfApostrophe?_suffix (h : restOfApostrophe? cs = some rest) : rest <:+ cs := by
  unfold restOfApostrophe? at h
  split at h
  · cases h
    exact List.suffix_cons ..
  · cases h

theorem restOfEscaped?_suffix {k : Content} {p : Place} (h : restOfEscaped? k p cs = some rest) :
    rest <:+ cs := by
  fun_induction restOfEscaped? k p cs with
    grind [List.suffix_cons_iff, → restOfApostrophe?_suffix]

theorem restOfCharacter?_suffix {k : Content} (h : restOfCharacter? k cs = some rest) :
    rest <:+ cs := by
  unfold restOfCharacter? at h
  grind [List.suffix_cons_iff, → restOfApostrophe?_suffix, → restOfEscaped?_suffix]

theorem restOfNumber?_suffix (h : restOfNumber? cs = some rest) : rest <:+ cs := by
  obtain ⟨-, h⟩ := Option.ite_none_right_eq_some.mp h
  cases h
  exact restOfSuffix_suffix cs

theorem restOfExponent?_suffix {bare : Option (List Char)} {sign digit : Bool}
    (h : restOfExponent? bare sign digit cs = some rest) : rest <:+ cs ∨ bare = some rest := by
  fun_induction restOfExponent? bare sign digit cs with grind [List.suffix_cons_iff]

theorem restOfMantissa?_suffix {point : Bool} (h : restOfMantissa? point cs = some rest) :
    rest <:+ cs := by
  fun_induction restOfMantissa? point cs with
    grind [List.suffix_cons_iff, → restOfExponent?_suffix]

theorem restOfDigits?_suffix {base : Nat} {empty : Bool}
    (h : restOfDigits? base empty cs = some rest) : rest <:+ cs := by
  fun_induction restOfDigits? base empty cs with grind [List.suffix_cons_iff]

theorem restOfFloat?_suffix (h : restOfFloat? cs = some rest) : rest <:+ cs := by
  unfold restOfFloat? at h
  split at h
  · obtain ⟨-, h⟩ := Option.ite_none_right_eq_some.mp h
    obtain ⟨digits, hdigits, h⟩ := Option.bind_eq_some_iff.mp h
    exact (restOfNumber?_suffix h).trans
      ((restOfMantissa?_suffix hdigits).trans (List.suffix_cons ..))
  · cases h

theorem restOfInteger?_suffix (h : restOfInteger? cs = some rest) : rest <:+ cs := by
  obtain ⟨digits, hdigits, h⟩ := Option.bind_eq_some_iff.mp h
  refine (restOfNumber?_suffix h).trans ?_
  split at hdigits <;>
    grind [List.suffix_cons_iff, → restOfDigits?_suffix]

theorem restOfUnsuffixed?_suffix (h : restOfUnsuffixed? cs = some rest) : rest <:+ cs := by
  unfold restOfUnsuffixed? at h
  split at h
  all_goals
    grind [List.suffix_cons_iff, → restOfQuoted?_suffix, → restOfHashed?_suffix,
      → restOfCharacter?_suffix]

theorem rest?_suffix (h : rest? cs = some rest) : rest <:+ cs := by
  unfold rest? at h
  rcases Option.or_eq_some_iff.mp h with h | ⟨-, h⟩
  · obtain ⟨after, hafter, rfl⟩ := Option.map_eq_some_iff.mp h
    exact (restOfSuffix_suffix after).trans (restOfUnsuffixed?_suffix hafter)
  · rcases Option.or_eq_some_iff.mp h with h | ⟨-, h⟩
    · exact restOfFloat?_suffix h
    · exact restOfInteger?_suffix h

end Literal

namespace Piece

/-! ## What follows a token -/

theorem restOfAnyIdentifier?_suffix (h : restOfAnyIdentifier? cs = some rest) : rest <:+ cs := by
  unfold restOfAnyIdentifier? at h
  split at h
  · split at h
    · rename_i after hafter
      obtain ⟨-, heq⟩ := Option.ite_none_left_eq_some.mp h
      cases heq
      exact (restOfIdentifier?_suffix hafter).trans ⟨['r', '#'], rfl⟩
    · cases h
  · exact restOfIdentifier?_suffix h

theorem restOfName?_suffix (h : restOfName? cs = some rest) : rest <:+ cs :=
  restOfAnyIdentifier?_suffix (Option.ite_none_left_eq_some.mp h).2

theorem before_append_self (h : rest <:+ cs) : (before cs rest).toList ++ rest = cs := by
  obtain ⟨front, rfl⟩ := h
  simp [before]

/-- The text of a token is what was read of it. -/
theorem chars_append_of_leaf? {t : Token} (h : leaf? cs = some (t, rest)) :
    t.chars ++ rest = cs := by
  unfold leaf? at h
  split at h
  · rename_i after hliteral
    cases h
    exact before_append_self (Literal.rest?_suffix hliteral)
  · split at h
    · rename_i found after hpunct
      cases h
      unfold punct? at hpunct
      split at hpunct
      · obtain ⟨-, hpunct⟩ := Option.ite_none_right_eq_some.mp hpunct
        cases hpunct
        rfl
      · obtain ⟨-, hpunct⟩ := Option.ite_none_right_eq_some.mp hpunct
        cases hpunct
        rfl
      · cases hpunct
    · obtain ⟨after, hname, heq⟩ := Option.map_eq_some_iff.mp h
      cases heq
      exact before_append_self (restOfName?_suffix hname)

/-! ## Slashes -/

/-- The text of the token of a piece. -/
def chars : Piece → List Char
  | leaf t => t.chars
  | opening _ => []
  | closing _ => []

/-- How many slashes the tokens of pieces are written with. -/
def slashesOf (pieces : List Piece) : Nat :=
  (pieces.flatMap chars).count '/'

theorem slash_notMem_hex (n : Nat) : '/' ∉ Text.Quoted.hex n := by
  have hdigit (n : Nat) : '/' ≠ Nat.digitChar n := (Nat.digitChar_ne '/' (by decide)).symm
  unfold Text.Quoted.hex
  induction n using Nat.strongRecOn with
  | ind n ih =>
    rw [Nat.toDigits_eq_if (by decide)]
    split
    · simp [hdigit]
    · simp [hdigit, ih (n / 16) (by omega)]

theorem count_escape (c : Char) : (Text.Quoted.escape c).count '/' = [c].count '/' := by
  unfold Text.Quoted.escape
  split_ifs with h₁ h₂ h₃ h₄ h₅ h₆ h₇
  · subst h₁; rfl
  · subst h₂; rfl
  · subst h₃; rfl
  · subst h₄; rfl
  · subst h₅; rfl
  · subst h₆; rfl
  · rfl
  · have hc : c ≠ '/' := by
      rintro rfl
      exact h₇ (by decide)
    simp [List.count_eq_zero_of_not_mem (slash_notMem_hex _), hc]

theorem count_literalChars (cs : List Char) : (literalChars cs).count '/' = cs.count '/' := by
  fun_induction literalChars cs with
  | case1 => rfl
  | case2 c cs ih =>
    rw [List.count_append, ih]
    split <;> simp
  | case3 c cs _ ih => rw [List.count_append, ih, count_escape, ← List.count_append]; rfl

theorem slashesOf_documentation {inner : Bool} {text : List Char} {pieces : List Piece}
    (h : documentation inner text = some pieces) : slashesOf pieces = text.count '/' := by
  obtain ⟨-, h⟩ := Option.ite_none_right_eq_some.mp h
  cases h
  cases inner <;> simp [slashesOf, chars, Token.chars, count_literalChars]

theorem count_splitLine (cs : List Char) :
    (splitLine cs).1.count '/' + (splitLine cs).2.count '/' = cs.count '/' := by
  fun_induction splitLine cs with
  | case1 => rfl
  | case2 cs => simp
  | case3 cs => simp
  | case4 c cs _ _ line rest hsplit ih =>
    simp only [hsplit] at ih
    simp only [List.count_cons]
    omega

/-- Two slashes begin a comment up to the end of its line, and are no part of any token. -/
theorem slashesOf_lineComment? {pieces : List Piece} (h : lineComment? cs = some (pieces, rest)) :
    slashesOf pieces + rest.count '/' ≤ cs.count '/' := by
  rw [lineComment?_eq] at h
  obtain ⟨found, hfound, heq⟩ := Option.map_eq_some_iff.mp h
  cases heq
  have hline : slashesOf pieces ≤ (splitLine cs).1.count '/' := by
    unfold ofLine? at hfound
    split at hfound
    · rename_i text hline
      rw [slashesOf_documentation hfound, hline]
      exact (List.sublist_cons_self ..).count_le _
    · cases hfound
      exact Nat.zero_le _
    · rename_i text hmore hline
      rw [slashesOf_documentation hfound, hline]
      exact (List.sublist_cons_self ..).count_le _
    · cases hfound
      exact Nat.zero_le _
  have := count_splitLine cs
  omega

theorem count_splitComment? {depth : Nat} {text : List Char}
    (h : splitComment? depth cs = some (text, rest)) :
    text.count '/' + rest.count '/' ≤ cs.count '/' := by
  fun_induction splitComment? depth cs generalizing text with
  | case1 depth cs ih =>
    obtain ⟨⟨inner, _⟩, hinner, heq⟩ := Option.map_eq_some_iff.mp h
    cases heq
    have := ih hinner
    simp
    omega
  | case2 depth cs hdepth =>
    cases h
    simp
  | case3 depth cs hdepth ih =>
    obtain ⟨⟨inner, _⟩, hinner, heq⟩ := Option.map_eq_some_iff.mp h
    cases heq
    have := ih hinner
    simp
    omega
  | case4 depth c cs hopen hclose ih =>
    obtain ⟨⟨inner, _⟩, hinner, heq⟩ := Option.map_eq_some_iff.mp h
    cases heq
    have := ih hinner
    rw [List.count_cons, List.count_cons]
    omega
  | case5 => cases h

theorem slashesOf_blockComment? {pieces : List Piece} (h : blockComment? cs = some (pieces, rest)) :
    slashesOf pieces + rest.count '/' ≤ cs.count '/' := by
  rw [blockComment?_eq] at h
  obtain ⟨⟨text, after⟩, hsplit, hpieces⟩ := Option.bind_eq_some_iff.mp h
  obtain ⟨found, hfound, heq⟩ := Option.map_eq_some_iff.mp hpieces
  cases heq
  have htext : slashesOf pieces ≤ text.count '/' := by
    unfold ofBlock? at hfound
    split at hfound
    · rw [slashesOf_documentation hfound]
      exact (List.drop_sublist ..).count_le _
    · cases hfound
      exact Nat.zero_le _
    · cases hfound
      exact Nat.zero_le _
    · rw [slashesOf_documentation hfound]
      exact (List.drop_sublist ..).count_le _
    · cases hfound
      exact Nat.zero_le _
  have := count_splitComment? hsplit
  omega

theorem errorMark_append_drop (h : errorMark.toList.isPrefixOf ('(' :: cs) = true) :
    errorMark.toList ++ cs.drop (errorMark.length - 1) = '(' :: cs := by
  obtain ⟨after, hafter⟩ := List.isPrefixOf_iff_prefix.mp h
  have htail := congrArg List.tail hafter
  rw [List.tail_append_of_ne_nil (by decide), List.tail_cons] at htail
  rw [← htail]
  rfl

/-- No step through a text makes slashes, and a comment up to the end of its line loses two. -/
theorem slashesOf_next? {pieces : List Piece} (h : next? cs = some (pieces, rest)) :
    slashesOf pieces + rest.count '/' + (if ['/', '/'].isPrefixOf cs then 1 else 0) ≤
      cs.count '/' := by
  unfold next? at h
  split at h
  case h_1 =>
    have := slashesOf_lineComment? h
    simp [List.isPrefixOf]
    omega
  case h_2 =>
    have := slashesOf_blockComment? h
    simp [List.isPrefixOf]
    omega
  case h_3 =>
    split at h
    · rename_i cs hmark
      cases h
      have hno (after : List Char) : ['/', '/'].isPrefixOf (errorMark.toList ++ after) = false :=
        rfl
      rw [← errorMark_append_drop hmark, hno]
      simp [slashesOf, chars, Token.chars]
    · cases h
      simp [List.isPrefixOf, slashesOf, chars]
  case h_4 | h_5 | h_6 | h_7 | h_8 =>
    cases h
    simp [List.isPrefixOf, slashesOf, chars]
  case h_9 c cs hline _ _ _ _ _ _ _ =>
    have hno : ['/', '/'].isPrefixOf (c :: cs) = false := by
      rw [Bool.eq_false_iff, ne_eq, List.isPrefixOf_iff_prefix]
      rintro ⟨after, hafter⟩
      cases hafter
      exact hline _ rfl rfl
    rw [if_neg (by simp [hno])]
    split at h
    · cases h
      simpa [slashesOf] using (List.sublist_cons_self c rest).count_le '/'
    · obtain ⟨⟨t, after⟩, hleaf, heq⟩ := Option.map_eq_some_iff.mp h
      cases heq
      have hread := congrArg (List.count '/') (chars_append_of_leaf? hleaf)
      rw [List.count_append] at hread
      simpa [slashesOf, chars] using hread.le
  case h_10 =>
    cases h
    simp [slashesOf]

theorem slashesOf_append (first second : List Piece) :
    slashesOf (first ++ second) = slashesOf first + slashesOf second := by
  simp [slashesOf]

/-- A text in which a comment up to the end of a line is met has more slashes than its pieces. -/
theorem slashesOf_scanWithin? {n : Nat} {pieces : List Piece} (h : scanWithin? n cs = some pieces) :
    slashesOf pieces + (if meetsLineComment n cs then 1 else 0) ≤ cs.count '/' := by
  induction n generalizing cs pieces with
  | zero =>
    cases cs with
    | nil => cases h; rfl
    | cons c cs => cases h
  | succ n ih =>
    cases cs with
    | nil => cases h; rfl
    | cons c cs =>
      simp only [scanWithin?] at h
      split at h
      · rename_i first rest hnext
        obtain ⟨later, hlater, rfl⟩ := Option.map_eq_some_iff.mp h
        have hstep := slashesOf_next? hnext
        have hrest := ih hlater
        have hmeets : meetsLineComment (n + 1) (c :: cs) =
            (['/', '/'].isPrefixOf (c :: cs) || meetsLineComment n rest) := by
          simp only [meetsLineComment, hnext, Option.any_some]
        rw [hmeets, slashesOf_append]
        cases hp : ['/', '/'].isPrefixOf (c :: cs) <;>
          cases hm : meetsLineComment n rest <;> simp [hp, hm] at hstep hrest ⊢ <;> omega
      · cases h

/-! ## Tokens -/

/-- How many slashes tokens are written with. -/
def slashesIn (ts : List Token) : Nat :=
  (ts.flatMap Token.chars).count '/'

theorem slashesIn_cons (t : Token) (ts : List Token) :
    slashesIn (t :: ts) = t.chars.count '/' + slashesIn ts := by
  simp [slashesIn]

theorem slashesIn_append (first second : List Token) :
    slashesIn (first ++ second) = slashesIn first + slashesIn second := by
  simp [slashesIn]

theorem slashesIn_reverse (ts : List Token) : slashesIn ts.reverse = slashesIn ts :=
  ((List.reverse_perm ts).flatMap_right _).count_eq _

theorem count_charsOfAll (ts : List Token) : (Token.charsOfAll ts).count '/' = slashesIn ts := by
  induction ts with
  | nil => rfl
  | cons t ts ih =>
    cases ts with
    | nil => simp [Token.charsOfAll, slashesIn]
    | cons next ts =>
      have hgap : (if t.isJoint then [] else [' ']).count '/' = 0 := by
        split <;> rfl
      rw [Token.charsOfAll, List.count_append, List.count_append, ih, hgap, slashesIn_cons t,
        Nat.add_zero]
      simp

theorem count_chars_group (d : Delimiter) (ts : List Token) :
    (Token.chars (.group d ts)).count '/' = slashesIn ts := by
  have hopening : d.opening.count '/' = 0 := by cases d <;> rfl
  have hclosing : (d.closing ts.isEmpty).count '/' = 0 := by
    cases d <;> cases ts.isEmpty <;> rfl
  rw [Token.chars, List.count_append, List.count_append, hopening, hclosing, count_charsOfAll,
    Nat.zero_add, Nat.add_zero]

theorem slashesIn_of_nestIn? {outer : List (Delimiter × List Token)} {tokens ts : List Token}
    {pieces : List Piece} (h : nestIn? outer tokens pieces = some ts) :
    slashesIn ts = slashesIn (outer.flatMap Prod.snd) + slashesIn tokens + slashesOf pieces := by
  fun_induction nestIn? outer tokens pieces with
  | case1 outer tokens houter =>
    cases h
    rw [List.isEmpty_iff] at houter
    subst houter
    rw [slashesIn_reverse]
    simp [slashesIn, slashesOf]
  | case2 => cases h
  | case3 outer tokens t rest ih =>
    rw [ih h]
    simp [slashesIn, slashesOf, chars]
    omega
  | case4 outer tokens d rest ih =>
    rw [ih h]
    simp [slashesIn, slashesOf, chars]
    omega
  | case5 tokens rest d before outer ih =>
    have houter : slashesIn (((d, before) :: outer).flatMap Prod.snd) =
        slashesIn before + slashesIn (outer.flatMap Prod.snd) := slashesIn_append _ _
    have hclosing : slashesOf (closing d :: rest) = slashesOf rest := rfl
    rw [ih h, houter, hclosing, slashesIn_cons, count_chars_group, slashesIn_reverse]
    omega
  | case6 => cases h
  | case7 => cases h

/-- Where tokens are read back from their text as they were, no comment is met in it. -/
theorem meetsLineComment_print {ts : List Token} (h : Token.lex? (Token.print ts) = some ts) :
    meetsLineComment (Token.print ts).toList.length (Token.print ts).toList = false := by
  obtain ⟨pieces, hscan, hnest⟩ := Token.lex?_eq_some.mp h
  have hread := slashesOf_scanWithin? hscan
  have hmade : slashesIn ts = slashesOf pieces := by
    simpa [slashesIn] using slashesIn_of_nestIn? hnest
  have hwritten : (Token.print ts).toList.count '/' = slashesIn ts := by
    rw [Token.print, String.toList_ofList, count_charsOfAll]
  by_contra hmeets
  rw [if_pos (by simpa using hmeets)] at hread
  omega

end Piece

end

end RunLoop.Attribute
