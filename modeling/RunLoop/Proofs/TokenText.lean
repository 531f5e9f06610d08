import Mathlib.Data.List.Forall2
import RunLoop.Attribute.Token.Lexer
import RunLoop.Proofs.LiteralText

/-!
# Texts that are joined

Where one text ends in front of a stop, the pieces of both together are the pieces of the one
followed by those of the other. So tokens that are written between other texts are read back as they
are read alone. Only a comment up to the end of its line would go on behind a stop, unless the stop
is a line feed.

* `Piece.leaf?_append`: a token is read alike with a stop behind it.
* `Piece.scan?_append`: the pieces of two texts.
* `Piece.scan?_lines`: the pieces of lines.
* `Piece.nestIn?_append`: pieces that make tokens make the same tokens inside a group.
* `Piece.prefix_of_scanWithin?`, `Piece.beginsWith_of_nestIn?`: what stands in front of a stop is
  read first, and what was made of it stays where it is.
-/

namespace RunLoop.Attribute

namespace Piece

section

variable {c d : Char} {cs rest tail : List Char}

theorem before_append (cs rest tail : List Char) :
    before (cs ++ tail) (rest ++ tail) = before cs rest := by
  have hlen : (cs ++ tail).length - (rest ++ tail).length = cs.length - rest.length := by
    simp only [List.length_append]
    omega
  rw [before, before, hlen, List.take_append_of_le_length (Nat.sub_le ..)]

/-! ## Names and punctuation -/

theorem restOfAnyIdentifier?_append (hd : Stop d) (cs tail : List Char) :
    restOfAnyIdentifier? (cs ++ d :: tail) = (restOfAnyIdentifier? cs).map (· ++ d :: tail) := by
  have hr : d ≠ 'r' := hd.ne_continues (by decide)
  have hhash : d ≠ '#' := hd.ne_punct (by decide)
  unfold restOfAnyIdentifier?
  split
  · obtain ⟨cs, rfl, rfl⟩ := eq_of_append_eq_two hr hhash ‹_›
    rw [restOfIdentifier?_append hd]
    cases hrest : restOfIdentifier? cs with
    | none => simp [hrest]
    | some rest =>
      have hname := before_append cs rest (d :: tail)
      unfold before at hname
      simp only [Option.map_some, hname, hrest]
      split <;> rfl
  · rename_i hraw
    rw [restOfIdentifier?_append hd]
    split
    · exact (hraw _ rfl).elim
    · rfl

theorem beginsLifetime_append (hd : Stop d) (cs tail : List Char) :
    beginsLifetime (cs ++ d :: tail) = beginsLifetime cs := by
  have hquote : d ≠ '\'' := hd.ne_punct (by decide)
  have hhash : d ≠ '#' := hd.ne_punct (by decide)
  have hr : d ≠ 'r' := hd.ne_continues (by decide)
  unfold beginsLifetime
  rw [restOfAnyIdentifier?_append hd, isPrefixOf_append_stop (by simp [hr, hhash])]
  match restOfAnyIdentifier? cs with
  | none => rfl
  | some [] => simp [hquote, hhash]
  | some (c :: rest) =>
    rw [Option.map_some, List.cons_append]
    by_cases hc : c = '\''
    · subst hc
      rfl
    · by_cases hc' : c = '#'
      · subst hc'
        rfl
      · simp [hc, hc']

theorem beginsWithPunct_cons (c : Char) (cs : List Char) :
    beginsWithPunct (c :: cs) = (!(c = '/' && (['/'].isPrefixOf cs || ['*'].isPrefixOf cs)) &&
      "~!@#$%^&*-=+|;:,<.>/?'".toList.contains c) := by
  unfold beginsWithPunct
  split
  · rename_i h
    obtain ⟨rfl, rfl⟩ := List.cons.inj h
    rfl
  · rename_i h
    obtain ⟨rfl, rfl⟩ := List.cons.inj h
    rfl
  · rename_i hline hblock h
    obtain ⟨rfl, rfl⟩ := List.cons.inj h
    have hcomment : (c = '/' && (['/'].isPrefixOf cs || ['*'].isPrefixOf cs)) = false := by
      cases cs with
      | nil => simp [List.isPrefixOf]
      | cons c' cs =>
        simp only [List.isPrefixOf, Bool.and_true, Bool.and_eq_false_imp, decide_eq_true_eq,
          Bool.or_eq_false_iff, beq_eq_false_iff_ne]
        rintro rfl
        exact ⟨fun h => hline cs rfl (by rw [← h]), fun h => hblock cs rfl (by rw [← h])⟩
    rw [hcomment]
    rfl
  · rename_i h
    cases h

theorem beginsWithPunct_append (hd : Stop d) (cs tail : List Char) :
    beginsWithPunct (cs ++ d :: tail) = beginsWithPunct cs := by
  have hslash : d ≠ '/' := hd.ne_punct (by decide)
  have hstar : d ≠ '*' := hd.ne_punct (by decide)
  cases cs with
  | nil => rw [List.nil_append, beginsWithPunct_cons, hd.punct, Bool.and_false]; rfl
  | cons c cs =>
    rw [List.cons_append, beginsWithPunct_cons, beginsWithPunct_cons,
      isPrefixOf_append_stop (by simpa using hslash), isPrefixOf_append_stop (by simpa using hstar)]

theorem punct?_of_ne (hc : c ≠ '\'') (cs : List Char) : punct? (c :: cs) =
    if beginsWithPunct (c :: cs) then some (.punct c (beginsWithPunct cs), cs) else none := by
  simp [punct?]

theorem punct?_append (hd : Stop d) (cs tail : List Char) :
    punct? (cs ++ d :: tail) = (punct? cs).map (fun (t, rest) => (t, rest ++ d :: tail)) := by
  cases cs with
  | nil =>
    rw [List.nil_append, punct?_of_ne (hd.ne_punct (by decide)), beginsWithPunct_cons, hd.punct,
      Bool.and_false]
    rfl
  | cons c cs =>
    by_cases hc : c = '\''
    · subst hc
      simp only [List.cons_append, punct?, beginsLifetime_append hd]
      split <;> rfl
    · rw [List.cons_append, punct?_of_ne hc, punct?_of_ne hc, ← List.cons_append,
        beginsWithPunct_append hd, beginsWithPunct_append hd]
      split <;> rfl

theorem restOfName?_append (hd : Stop d) (cs tail : List Char) :
    restOfName? (cs ++ d :: tail) = (restOfName? cs).map (· ++ d :: tail) := by
  have hstarts : (literalStarts.any fun start => start.toList.isPrefixOf (cs ++ d :: tail)) =
      literalStarts.any fun start => start.toList.isPrefixOf cs := by
    have hletter : d ≠ 'r' ∧ d ≠ 'b' ∧ d ≠ 'c' :=
      ⟨hd.ne_continues (by decide), hd.ne_continues (by decide), hd.ne_continues (by decide)⟩
    have hmark : d ≠ '#' ∧ d ≠ '\'' := ⟨hd.ne_punct (by decide), hd.ne_punct (by decide)⟩
    simp [literalStarts, isPrefixOf_append_stop, hletter, hmark, hd.quote]
  rw [restOfName?, restOfName?, hstarts, restOfAnyIdentifier?_append hd]
  split <;> rfl

/-! ## Tokens -/

/-- Where no quote follows the `#`, no text without escapes begins. -/
theorem restOfHashed?_eq_none {k : Literal.Content} (hquote : ∀ after, cs ≠ '"' :: after)
    (hhash : ∀ after, cs = '#' :: after → Literal.restOfHashed? k cs = none) :
    Literal.restOfHashed? k cs = none := by
  cases cs with
  | nil => rfl
  | cons c cs =>
    by_cases hc : c = '#'
    · exact hhash cs (by rw [hc])
    · have hc' : c ≠ '"' := fun h => hquote cs (by rw [h])
      simp [Literal.restOfHashed?, hc]

/-- The apostrophe of a lifetime begins no character. -/
theorem restOfCharacter?_of_beginsLifetime (h : beginsLifetime cs = true) :
    Literal.restOfCharacter? .text cs = none := by
  cases cs with
  | nil => rfl
  | cons c cs =>
    have hslash : c ≠ '\\' := by
      rintro rfl
      rw [beginsLifetime, show restOfAnyIdentifier? ('\\' :: cs) = none from rfl] at h
      cases h
    have hquote : Literal.restOfApostrophe? cs = none := by
      unfold Literal.restOfApostrophe?
      split
      · rename_i after
        have hname : restOfAnyIdentifier? (c :: '\'' :: after) =
            if Text.startsIdentifier c then some ('\'' :: after) else none := by
          simp [restOfAnyIdentifier?, restOfIdentifier?,
            show Text.continuesIdentifier '\'' = false by decide]
        rw [beginsLifetime, hname] at h
        cases hc : Text.startsIdentifier c <;> simp [hc] at h
      · rfl
    rw [Literal.restOfCharacter?, if_neg hslash, hquote, ite_self]

theorem rest?_eq_none_of_punct? {t : Token} (h : punct? cs = some (t, rest)) :
    Literal.rest? cs = none := by
  cases cs with
  | nil => rfl
  | cons c cs =>
    by_cases hc : c = '\''
    · subst hc
      refine Literal.rest?_eq_none (by decide) (restOfCharacter?_of_beginsLifetime ?_)
      rw [punct?] at h
      split at h
      · assumption
      · cases h
    · rw [punct?_of_ne hc, beginsWithPunct_cons] at h
      have hmem : c ∈ "~!@#$%^&*-=+|;:,<.>/?'".toList := by
        by_contra hmem
        rw [← List.contains_iff_mem, Bool.not_eq_true] at hmem
        rw [hmem, Bool.and_false] at h
        cases h
      have hall : ("~!@#$%^&*-=+|;:,<.>/?'".toList.all fun c =>
          !c.isDigit && !List.contains ['"', 'r', 'b', 'c'] c) = true := by
        decide
      have hother := List.all_eq_true.mp hall c hmem
      rw [Bool.and_eq_true, Bool.not_eq_true', Bool.not_eq_true'] at hother
      refine Literal.rest?_eq_none hother.1 ?_
      unfold Literal.restOfUnsuffixed?
      split <;> simp_all

/-- A name does not begin with a digit. -/
theorem isDigit_of_startsIdentifier (h : Text.startsIdentifier c = true) :
    c.isDigit = false := by
  by_contra hdigit
  obtain ⟨hlow, hhigh⟩ : 48 ≤ c.toNat ∧ c.toNat ≤ 57 :=
    Char.isDigit_iff_toNat.mp (Bool.not_eq_false _ ▸ hdigit)
  rw [Text.startsIdentifier, if_pos (by omega), Bool.or_eq_true, decide_eq_true_eq] at h
  have hupper (h : c.isUpper = true) : 65 ≤ c.toNat :=
    UInt32.le_iff_toNat_le.mp (of_decide_eq_true h).1
  have hlower (h : c.isLower = true) : 97 ≤ c.toNat :=
    UInt32.le_iff_toNat_le.mp (of_decide_eq_true (Bool.and_eq_true_iff.mp h).1)
  rcases h with h | rfl
  · rcases Bool.or_eq_true_iff.mp h with h | h
    · have := hupper h
      omega
    · have := hlower h
      omega
  · exact hdigit (by decide)

theorem startsIdentifier_of_name (h : restOfAnyIdentifier? cs = some rest) :
    ∃ c cs', cs = c :: cs' ∧ Text.startsIdentifier c = true := by
  unfold restOfAnyIdentifier? at h
  split at h
  · exact ⟨_, _, rfl, by decide⟩
  · unfold restOfIdentifier? at h
    split at h
    · split at h
      · exact ⟨_, _, rfl, ‹_›⟩
      · cases h
    · cases h

theorem rest?_eq_none_of_name (h : restOfName? cs = some rest) : Literal.rest? cs = none := by
  unfold restOfName? at h
  split at h
  · cases h
  rename_i hany
  have hstart (start : String) (hmem : start ∈ literalStarts) (after : List Char) :
      cs ≠ start.toList ++ after := by
    rintro rfl
    exact hany (List.any_eq_true.mpr ⟨start, hmem, by simp⟩)
  obtain ⟨c, cs, rfl, hc⟩ := startsIdentifier_of_name h
  refine Literal.rest?_eq_none (isDigit_of_startsIdentifier hc) ?_
  unfold Literal.restOfUnsuffixed?
  split <;> rename_i after heq
  · obtain ⟨rfl, rfl⟩ := List.cons.inj heq
    exact absurd hc (by decide)
  · obtain ⟨rfl, rfl⟩ := List.cons.inj heq
    -- One `#` behind the letter begins a raw name, unless a quote or another `#` follows.
    refine restOfHashed?_eq_none (fun after h => ?_) (fun after h => ?_)
    · exact hstart "r\"" (by decide) after (by rw [h]; rfl)
    · subst h
      cases after with
      | nil => rfl
      | cons c after =>
        have hquote : c ≠ '"' := by
          rintro rfl
          exact hstart "r#\"" (by decide) after rfl
        have hhash : c ≠ '#' := by
          rintro rfl
          exact hstart "r##" (by decide) after rfl
        simp [Literal.restOfHashed?, hquote, hhash]
  · exact (hstart "b\"" (by decide) after heq).elim
  · rw [heq] at hstart
    refine restOfHashed?_eq_none (fun after h => ?_) (fun after h => ?_)
    · exact (hstart "br\"" (by decide) after (by rw [h]; rfl)).elim
    · exact (hstart "br#" (by decide) after (by rw [h]; rfl)).elim
  · exact (hstart "c\"" (by decide) after heq).elim
  · rw [heq] at hstart
    refine restOfHashed?_eq_none (fun after h => ?_) (fun after h => ?_)
    · exact (hstart "cr\"" (by decide) after (by rw [h]; rfl)).elim
    · exact (hstart "cr#" (by decide) after (by rw [h]; rfl)).elim
  · exact (hstart "b'" (by decide) after heq).elim
  · obtain ⟨rfl, rfl⟩ := List.cons.inj heq
    exact absurd hc (by decide)
  · rfl

/-- A token is read alike with a stop behind it. -/
theorem leaf?_append {t : Token} (hd : Stop d) (h : leaf? cs = some (t, rest))
    (tail : List Char) : leaf? (cs ++ d :: tail) = some (t, rest ++ d :: tail) := by
  unfold leaf? at h ⊢
  cases hliteral : Literal.rest? cs with
  | some after =>
    rw [hliteral] at h
    cases h
    simp only [Literal.rest?_append hd hliteral, before_append]
  | none =>
    rw [hliteral] at h
    cases hpunct : punct? cs with
    | some found =>
      rw [hpunct] at h
      cases h
      have hpunct' := punct?_append hd cs tail
      rw [hpunct, Option.map_some] at hpunct'
      simp only [rest?_eq_none_of_punct? hpunct', hpunct']
    | none =>
      rw [hpunct] at h
      obtain ⟨after, hname, hfound⟩ := Option.map_eq_some_iff.mp h
      cases hfound
      have hname' := restOfName?_append hd cs tail
      rw [hname, Option.map_some] at hname'
      simp only [rest?_eq_none_of_name hname', punct?_append hd, hpunct, Option.map_none, hname',
        Option.map_some, before_append]

/-- A token that is a literal is one with its text. -/
theorem leaf?_eq_literal {t : String} (h : leaf? cs = some (.literal t, rest)) :
    before cs rest = t := by
  unfold leaf? at h
  split at h
  · cases h
    rfl
  · split at h
    · rename_i found after hpunct
      cases h
      unfold punct? at hpunct
      split at hpunct
      · split at hpunct <;> cases hpunct
      · split at hpunct <;> cases hpunct
      · cases hpunct
    · obtain ⟨after, -, heq⟩ := Option.map_eq_some_iff.mp h
      cases heq

/-! ## Comments -/

/-- A line feed ends the last line of a text, which loses a carriage return at its end. -/
theorem splitLine_append (cs tail : List Char) : ∃ close ∈ [[], ['\r']],
    (splitLine cs).1 = (splitLine (cs ++ '\n' :: tail)).1 ++ close ∧
      (splitLine (cs ++ '\n' :: tail)).2 = (splitLine cs).2 ++ '\n' :: tail := by
  fun_induction splitLine cs with
  | case1 => exact ⟨[], by simp, rfl, rfl⟩
  | case2 cs => exact ⟨[], by simp, rfl, rfl⟩
  | case3 cs => exact ⟨[], by simp, rfl, rfl⟩
  | case4 c cs hfeed hreturn line rest hsplit ih =>
    rw [hsplit] at ih
    obtain ⟨close, hclose, hline, hrest⟩ := ih
    by_cases hlast : c = '\r' ∧ cs = []
    · obtain ⟨rfl, rfl⟩ := hlast
      cases hsplit
      exact ⟨['\r'], by simp, rfl, rfl⟩
    · have hstep : splitLine (c :: (cs ++ '\n' :: tail)) =
          (c :: (splitLine (cs ++ '\n' :: tail)).1, (splitLine (cs ++ '\n' :: tail)).2) := by
        rw [splitLine]
        · exact hfeed
        · rintro after rfl h
          cases cs with
          | nil => exact hlast ⟨rfl, rfl⟩
          | cons c cs => exact hreturn cs rfl (by rw [(List.cons.inj h).1])
      rw [List.cons_append, hstep]
      exact ⟨close, hclose, congrArg (c :: ·) hline, hrest⟩

theorem endsLinesProperly_append_return (cs : List Char) :
    endsLinesProperly (cs ++ ['\r']) = false := by
  fun_induction endsLinesProperly cs with
  | case1 cs ih => exact ih
  | case2 cs h =>
    cases cs with
    | nil => rfl
    | cons c cs =>
      rw [List.cons_append, List.cons_append, endsLinesProperly]
      rintro after h'
      exact h cs (by rw [(List.cons.inj h').1])
  | case3 c cs h h' ih =>
    rw [List.cons_append, endsLinesProperly]
    · exact ih
    · rintro after rfl _
      exact h' rfl
    · exact h'
  | case4 => rfl

theorem documentation_append_return (inner : Bool) (text : List Char) :
    documentation inner (text ++ ['\r']) = none := by
  rw [documentation, if_neg (by simp [endsLinesProperly_append_return])]

/-- The pieces of a comment from the characters of its line. -/
def ofLine? : List Char → Option (List Piece)
  | '!' :: text => documentation true text
  | '/' :: '/' :: _ => some []
  | '/' :: text => documentation false text
  | _ => some []

theorem lineComment?_eq (cs : List Char) :
    lineComment? cs = (ofLine? (splitLine cs).1).map (·, (splitLine cs).2) := by
  unfold lineComment? ofLine?
  rcases splitLine cs with ⟨line, rest⟩
  dsimp only
  split <;> simp

/-- A carriage return at the end of a line documents nothing, and is no matter elsewhere. -/
theorem ofLine?_append_return {line : List Char} {pieces : List Piece}
    (h : ofLine? (line ++ ['\r']) = some pieces) : ofLine? line = some pieces := by
  cases line with
  | nil => exact h
  | cons c line =>
    by_cases hinner : c = '!'
    · subst hinner
      simp [ofLine?, documentation_append_return] at h
    · by_cases houter : c = '/'
      · subst houter
        cases line with
        | nil => simp [ofLine?, show documentation false ['\r'] = none from rfl] at h
        | cons c line =>
          by_cases hmore : c = '/'
          · subst hmore
            exact h
          · have hdoc : ofLine? ('/' :: c :: line ++ ['\r']) =
                documentation false (c :: line ++ ['\r']) := by
              simp [ofLine?, hmore]
            rw [hdoc, documentation_append_return] at h
            cases h
      · simpa [ofLine?, hinner, houter] using h

theorem lineComment?_append {pieces : List Piece} (h : lineComment? cs = some (pieces, rest))
    (tail : List Char) :
    lineComment? (cs ++ '\n' :: tail) = some (pieces, rest ++ '\n' :: tail) := by
  obtain ⟨close, hclose, hline, hrest⟩ := splitLine_append cs tail
  rw [lineComment?_eq] at h ⊢
  obtain ⟨found, hfound, heq⟩ := Option.map_eq_some_iff.mp h
  cases heq
  rw [hline] at hfound
  have hfound' : ofLine? (splitLine (cs ++ '\n' :: tail)).1 = some pieces := by
    simp only [List.mem_cons, List.not_mem_nil, or_false] at hclose
    rcases hclose with rfl | rfl
    · rwa [List.append_nil] at hfound
    · exact ofLine?_append_return hfound
  rw [hfound', hrest, Option.map_some]

theorem splitComment?_append {depth : Nat} {text : List Char}
    (h : splitComment? depth cs = some (text, rest)) (tail : List Char) :
    splitComment? depth (cs ++ tail) = some (text, rest ++ tail) := by
  fun_induction splitComment? depth cs generalizing text with
  | case1 depth cs ih =>
    obtain ⟨⟨inner, _⟩, hinner, heq⟩ := Option.map_eq_some_iff.mp h
    cases heq
    simp only [List.cons_append, splitComment?, ih hinner, Option.map_some]
  | case2 depth cs hdepth =>
    cases h
    simp only [List.cons_append, splitComment?, if_pos hdepth]
  | case3 depth cs hdepth ih =>
    obtain ⟨⟨inner, _⟩, hinner, heq⟩ := Option.map_eq_some_iff.mp h
    cases heq
    simp only [List.cons_append, splitComment?, if_neg hdepth, ih hinner, Option.map_some]
  | case4 depth c cs hopen hclose ih =>
    obtain ⟨⟨inner, _⟩, hinner, heq⟩ := Option.map_eq_some_iff.mp h
    cases heq
    cases cs with
    | nil => cases hinner
    | cons c' cs =>
      rw [List.cons_append, splitComment?, ih hinner, Option.map_some]
      · rintro after hc h
        exact hopen cs hc (by rw [(List.cons.inj h).1])
      · rintro after hc h
        exact hclose cs hc (by rw [(List.cons.inj h).1])
  | case5 => cases h

/-- The pieces of a comment from its first characters and the whole of it. -/
def ofBlock? (text : List Char) : List Char → Option (List Piece)
  | '!' :: _ => documentation true (text.drop 1)
  | '*' :: '/' :: _ => some []
  | '*' :: '*' :: _ => some []
  | '*' :: _ => documentation false (text.drop 1)
  | _ => some []

theorem blockComment?_eq (cs : List Char) : blockComment? cs =
    (splitComment? 1 cs).bind (fun (text, rest) => (ofBlock? text cs).map (·, rest)) := by
  unfold blockComment? ofBlock?
  split <;> simp_all

theorem ofBlock?_append (text : List Char) (c c' : Char) (cs tail : List Char) :
    ofBlock? text (c :: c' :: cs ++ tail) = ofBlock? text (c :: c' :: cs) := by
  by_cases hstar : c = '*'
  · subst hstar
    by_cases hclose : c' = '/'
    · subst hclose
      rfl
    · by_cases hmore : c' = '*'
      · subst hmore
        rfl
      · simp [ofBlock?, hclose, hmore]
  · by_cases hinner : c = '!'
    · subst hinner
      rfl
    · simp [ofBlock?, hinner, hstar]

theorem blockComment?_append {pieces : List Piece} (h : blockComment? cs = some (pieces, rest))
    (tail : List Char) : blockComment? (cs ++ tail) = some (pieces, rest ++ tail) := by
  rw [blockComment?_eq] at h ⊢
  obtain ⟨⟨text, after⟩, hsplit, hpieces⟩ := Option.bind_eq_some_iff.mp h
  obtain ⟨found, hfound, heq⟩ := Option.map_eq_some_iff.mp hpieces
  cases heq
  rw [splitComment?_append hsplit, Option.bind_some]
  match cs with
  | [] => simp [splitComment?] at hsplit
  | [c] => simp [splitComment?] at hsplit
  | c :: c' :: cs =>
    simp only
    rw [ofBlock?_append, hfound, Option.map_some]

/-! ## Whole texts -/

/-- Where neither a delimiter nor a comment is next, a separator or a token is. -/
theorem next?_other (hc : c ∉ "()[]\x7b\x7d".toList)
    (hcomment : c = '/' → ∀ after, cs ≠ '/' :: after ∧ cs ≠ '*' :: after) :
    next? (c :: cs) = if isSeparator c then some ([], cs)
      else (leaf? (c :: cs)).map (fun (t, rest) => ([leaf t], rest)) := by
  unfold next?
  split <;> simp_all

/-- The mark of a failed expansion is longer than one character, so a stop must not be inside of
it. -/
theorem next?_append {pieces : List Piece} (hd : Stop d) (hmark : d ∉ errorMark.toList.tail)
    (hcs : cs ≠ []) (hline : d = '\n' ∨ ['/', '/'].isPrefixOf cs = false)
    (h : next? cs = some (pieces, rest)) (tail : List Char) :
    next? (cs ++ d :: tail) = some (pieces, rest ++ d :: tail) := by
  have hslash : d ≠ '/' := hd.ne_punct (by decide)
  have hstar : d ≠ '*' := hd.ne_punct (by decide)
  unfold next? at h
  split at h
  · simp [List.isPrefixOf] at hline
    subst hline
    exact lineComment?_append h tail
  · exact blockComment?_append h _
  · rename_i cs _
    have hstart (after : List Char) : errorMark.toList.isPrefixOf ('(' :: after) =
        errorMark.toList.tail.isPrefixOf after := rfl
    rw [hstart] at h
    simp only [List.cons_append, next?, hstart, isPrefixOf_append_stop hmark]
    split at h
    · rename_i hprefix
      cases h
      rw [if_pos hprefix, show errorMark.length - 1 = errorMark.toList.tail.length by decide,
        drop_append_of_isPrefixOf hprefix]
    · rename_i hprefix
      cases h
      rw [if_neg hprefix]
  · cases h; rfl
  · cases h; rfl
  · cases h; rfl
  · cases h; rfl
  · cases h; rfl
  · rename_i c cs hcline hblock hopen hclose hopen' hclose' hopen'' hclose''
    have hother : c ∉ "()[]\x7b\x7d".toList := by
      simp_all
    rw [List.cons_append, next?_other hother]
    · split at h <;> rename_i hsep
      · cases h
        rw [if_pos hsep]
      · rw [if_neg hsep]
        obtain ⟨⟨t, after⟩, hleaf, heq⟩ := Option.map_eq_some_iff.mp h
        cases heq
        rw [← List.cons_append, leaf?_append hd hleaf, Option.map_some]
    · rintro rfl after
      cases cs with
      | nil => simp [hslash, hstar]
      | cons c' cs =>
        constructor <;> intro heq
        · exact hcline cs rfl (by rw [(List.cons.inj heq).1])
        · exact hblock cs rfl (by rw [(List.cons.inj heq).1])
  · exact (hcs rfl).elim

/-- Whether a comment up to the end of its line is met within `n` steps. -/
def meetsLineComment : Nat → List Char → Bool
  | _, [] => false
  | 0, _ => false
  | n + 1, cs =>
      ['/', '/'].isPrefixOf cs || (next? cs).any (fun (_, rest) => meetsLineComment n rest)

theorem scanWithin?_mono {n m : Nat} {pieces : List Piece} (hnm : n ≤ m)
    (h : scanWithin? n cs = some pieces) : scanWithin? m cs = some pieces := by
  induction n generalizing m cs pieces with
  | zero =>
    cases cs with
    | nil => cases m <;> exact h
    | cons c cs => cases h
  | succ n ih =>
    cases cs with
    | nil => cases m <;> exact h
    | cons c cs =>
      obtain ⟨m, rfl⟩ : ∃ k, m = k + 1 := ⟨m - 1, by omega⟩
      simp only [scanWithin?] at h ⊢
      split at h
      · obtain ⟨later, hlater, rfl⟩ := Option.map_eq_some_iff.mp h
        rw [ih (m := m) (by omega) hlater, Option.map_some]
      · cases h

/-- A step through a text is the same step with a stop behind the text, unless it meets a comment up
to the end of its line. -/
theorem next?_of_scanWithin? {n : Nat} {first : List Piece} (hd : Stop d)
    (hmark : d ∉ errorMark.toList.tail)
    (hline : d = '\n' ∨ meetsLineComment (n + 1) (c :: cs) = false)
    (h : scanWithin? (n + 1) (c :: cs) = some first) (tail : List Char) :
    ∃ pieces rest later, first = pieces ++ later ∧ scanWithin? n rest = some later ∧
      (d = '\n' ∨ meetsLineComment n rest = false) ∧
      next? (c :: (cs ++ d :: tail)) = some (pieces, rest ++ d :: tail) := by
  simp only [scanWithin?] at h
  split at h
  · rename_i pieces rest hnext
    obtain ⟨later, hlater, rfl⟩ := Option.map_eq_some_iff.mp h
    have hline' : d = '\n' ∨
        ['/', '/'].isPrefixOf (c :: cs) = false ∧ meetsLineComment n rest = false := by
      simpa only [meetsLineComment, hnext, Option.any_some, Bool.or_eq_false_iff] using hline
    exact ⟨pieces, rest, later, rfl, hlater, hline'.imp_right And.right,
      next?_append hd hmark (by simp) (hline'.imp_right And.left) hnext tail⟩
  · cases h

theorem scanWithin?_append {n m : Nat} {first second : List Piece} (hd : Stop d)
    (hmark : d ∉ errorMark.toList.tail) (hline : d = '\n' ∨ meetsLineComment n cs = false)
    (hfirst : scanWithin? n cs = some first) (hsecond : scanWithin? m (d :: tail) = some second) :
    scanWithin? (n + m) (cs ++ d :: tail) = some (first ++ second) := by
  -- Every step through the first text is one through both, until only the second one is left.
  induction n generalizing cs first with
  | zero =>
    cases cs with
    | nil =>
      cases hfirst
      rw [Nat.zero_add]
      exact hsecond
    | cons c cs => cases hfirst
  | succ n ih =>
    cases cs with
    | nil =>
      cases hfirst
      exact scanWithin?_mono (by omega) hsecond
    | cons c cs =>
      obtain ⟨pieces, rest, later, rfl, hlater, hline', hnext⟩ :=
        next?_of_scanWithin? hd hmark hline hfirst tail
      rw [Nat.succ_add, List.cons_append]
      simp only [scanWithin?, hnext, ih hline' hlater, Option.map_some, List.append_assoc]

/-- Whatever comes behind a stop, the pieces of the text in front of it come first. -/
theorem prefix_of_scanWithin? {n m : Nat} {first pieces : List Piece} (hd : Stop d)
    (hmark : d ∉ errorMark.toList.tail) (hline : d = '\n' ∨ meetsLineComment n cs = false)
    (hfirst : scanWithin? n cs = some first)
    (h : scanWithin? m (cs ++ d :: tail) = some pieces) : first <+: pieces := by
  induction n generalizing m cs first pieces with
  | zero =>
    cases cs with
    | nil =>
      cases hfirst
      exact List.nil_prefix
    | cons c cs => cases hfirst
  | succ n ih =>
    cases cs with
    | nil =>
      cases hfirst
      exact List.nil_prefix
    | cons c cs =>
      cases m with
      | zero => cases h
      | succ m =>
        obtain ⟨found, rest, later, rfl, hlater, hline', hnext⟩ :=
          next?_of_scanWithin? hd hmark hline hfirst tail
        rw [List.cons_append] at h
        simp only [scanWithin?, hnext] at h
        obtain ⟨pieces', hpieces, rfl⟩ := Option.map_eq_some_iff.mp h
        exact (List.prefix_append_right_inj found).mpr (ih hline' hlater hpieces)

/-- The pieces of a text with another one behind it, which begins with a stop. -/
theorem scan?_append {first second : List Piece} (hd : Stop d)
    (hmark : d ∉ errorMark.toList.tail) (hline : d = '\n' ∨ meetsLineComment cs.length cs = false)
    (hfirst : scan? cs = some first) (hsecond : scan? (d :: tail) = some second) :
    scan? (cs ++ d :: tail) = some (first ++ second) := by
  rw [scan?, List.length_append]
  exact scanWithin?_append hd hmark hline hfirst hsecond

theorem scan?_step {first second : List Piece} (hnext : next? cs = some (first, rest))
    (hlen : rest.length < cs.length) (hrest : scan? rest = some second) :
    scan? cs = some (first ++ second) := by
  cases cs with
  | nil => simp at hlen
  | cons c cs =>
    rw [List.length_cons, Nat.lt_succ_iff] at hlen
    simp only [scan?, List.length_cons, scanWithin?, hnext, scanWithin?_mono hlen hrest,
      Option.map_some]

theorem scan?_separator (h : next? (c :: cs) = some ([], cs)) : scan? (c :: cs) = scan? cs := by
  simp only [scan?, List.length_cons, scanWithin?, h, List.nil_append]
  exact Option.map_id' ..

theorem scan?_indent (n : Nat) (cs : List Char) :
    scan? (List.replicate n ' ' ++ cs) = scan? cs := by
  induction n with
  | zero => rfl
  | succ n ih => exact (scan?_separator rfl).trans ih

/-- The pieces of lines are the pieces of each line, one after the other. -/
theorem scan?_lines {lines : List String} {pieces : List (List Piece)}
    (h : List.Forall₂ (fun line found => scan? line.toList = some found) lines pieces) :
    scan? ("\n".intercalate lines).toList = some pieces.flatten := by
  induction h with
  | nil => rfl
  | @cons line found lines pieces hline hlines ih =>
    cases hlines with
    | nil => simpa using hline
    | cons hnext hlater =>
      rw [String.intercalate_cons_cons, String.toList_append, String.toList_append,
        List.append_assoc, List.flatten_cons]
      refine scan?_append stop_lineFeed (by decide) (.inl rfl) hline ?_
      exact (scan?_separator rfl).trans ih

end

/-! ## Groups -/

section Groups

variable (outer : List (Delimiter × List Token)) (tokens : List Token)

/-- Groups that are open, and the tokens of the innermost one, inside of others: the outermost
tokens go on behind `tokens`. -/
def within : List (Delimiter × List Token) → List Token →
    List (Delimiter × List Token) × List Token
  | [], made => (outer, made ++ tokens)
  | (d, before) :: groups, made =>
      let (groups, before) := within groups before
      ((d, before) :: groups, made)

theorem within_cons (groups : List (Delimiter × List Token)) (t : Token) (made : List Token) :
    within outer tokens groups (t :: made) =
      ((within outer tokens groups made).1, t :: (within outer tokens groups made).2) := by
  cases groups <;> rfl

theorem nestIn?_within {groups : List (Delimiter × List Token)} {made ts : List Token}
    {pieces : List Piece} (h : nestIn? groups made pieces = some ts) (more : List Piece) :
    nestIn? (within outer tokens groups made).1 (within outer tokens groups made).2
      (pieces ++ more) = nestIn? outer (ts.reverse ++ tokens) more := by
  -- A step changes the innermost of the groups only, so it goes on `within` the others.
  induction pieces generalizing groups made with
  | nil =>
    cases groups with
    | nil =>
      cases h
      rw [List.reverse_reverse]
      rfl
    | cons group groups => cases h
  | cons piece pieces ih =>
    cases piece with
    | leaf t =>
      have hrest := ih h
      rwa [within_cons] at hrest
    | opening d => exact ih h
    | closing d =>
      cases groups with
      | nil => cases h
      | cons group groups =>
        obtain ⟨d', before⟩ := group
        simp only [nestIn?] at h
        split at h
        · rename_i hd
          have hrest := ih h
          rw [within_cons] at hrest
          simpa only [within, List.cons_append, nestIn?, if_pos hd] using hrest
        · cases h

/-- Pieces that make tokens make the same tokens inside of groups. -/
theorem nestIn?_append {ts : List Token} {pieces : List Piece} (h : nest? pieces = some ts)
    (more : List Piece) :
    nestIn? outer tokens (pieces ++ more) = nestIn? outer (ts.reverse ++ tokens) more :=
  nestIn?_within outer tokens h more

/-- Tokens that begin with those that were `made` in the innermost group that is open, inside of the
groups of `outer`. -/
def BeginsWith : List (Delimiter × List Token) → List Token → List Token → Prop
  | [], made, ts => made <+: ts
  | (d, before) :: outer, made, ts =>
      ∃ more, BeginsWith outer (before.reverse ++ [.group d (made ++ more)]) ts

variable {outer tokens} in
/-- What was made stays where it is. -/
theorem beginsWith_of_nestIn? {groups : List (Delimiter × List Token)} {made ts : List Token}
    {pieces : List Piece}
    (h : nestIn? (within outer tokens groups made).1 (within outer tokens groups made).2 pieces =
      some ts) : BeginsWith outer tokens.reverse ts := by
  induction pieces generalizing outer tokens groups made with
  | nil =>
    cases groups with
    | nil =>
      cases outer with
      | nil =>
        cases h
        rw [within, List.reverse_append]
        exact List.prefix_append ..
      | cons group outer => cases h
    | cons group groups => cases h
  | cons piece pieces ih =>
    cases piece with
    | leaf t =>
      refine @ih outer tokens groups (t :: made) ?_
      rwa [within_cons]
    | opening d => exact @ih outer tokens ((d, made) :: groups) [] h
    | closing d =>
      simp only [nestIn?] at h
      cases groups with
      | nil =>
        cases outer with
        | nil => cases h
        | cons group outer =>
          obtain ⟨d', before⟩ := group
          obtain ⟨rfl, h⟩ := Option.ite_none_right_eq_some.mp h
          have hgroup := @ih outer (.group d (made ++ tokens).reverse :: before) [] [] h
          exact ⟨made.reverse, by simpa using hgroup⟩
      | cons group groups =>
        obtain ⟨d', before⟩ := group
        obtain ⟨rfl, h⟩ := Option.ite_none_right_eq_some.mp h
        refine @ih outer tokens groups (.group d made.reverse :: before) ?_
        rwa [within_cons]

end Groups

end Piece

theorem Token.lex?_eq_some {t : String} {ts : List Token} : Token.lex? t = some ts ↔
    ∃ pieces, Piece.scan? t.toList = some pieces ∧ Piece.nest? pieces = some ts :=
  Option.bind_eq_some_iff

end RunLoop.Attribute
