import Mathlib.Data.List.TakeWhile
import RunLoop.Attribute.Token.Literal

/-!
# Literals with a text behind them

No token goes on with certain characters, whatever was read of it: such a character is a stop. With
a stop and any text behind it a literal is read as it is read alone, and what follows it has the
stop and that text at its end.

* `Stop` says that no token goes on with a character.
* `Literal.rest?_append`: a literal is read alike with a stop behind it.
* `Literal.rest?_eq_none`: what begins with no digit is no number.
-/

namespace RunLoop.Attribute

/-- No token goes on with character `c`. -/
structure Stop (c : Char) : Prop where
  starts : Text.startsIdentifier c = false
  continues : Text.continuesIdentifier c = false
  digit : c.isDigit = false
  hex : Literal.hexValue? c = none
  punct : "~!@#$%^&*-=+|;:,<.>/?'".toList.contains c = false
  quote : c ≠ '"'

theorem stop_lineFeed : Stop '\n' := by
  constructor <;> decide

theorem stop_opening : Stop '(' := by
  constructor <;> decide

theorem stop_closing : Stop ')' := by
  constructor <;> decide

section

variable {c d : Char} {cs rest tail : List Char}

theorem Stop.ne_punct (hd : Stop d) (hc : c ∈ "~!@#$%^&*-=+|;:,<.>/?'".toList) : d ≠ c := by
  rintro rfl
  have := hd.punct
  simp_all

theorem Stop.ne_continues (hd : Stop d) (hc : Text.continuesIdentifier c = true) : d ≠ c := by
  rintro rfl
  simp [hd.continues] at hc

/-! ## Lists -/

theorem dropWhile_append_stop {p : Char → Bool} (hd : p d = false) (cs tail : List Char) :
    (cs ++ d :: tail).dropWhile p = cs.dropWhile p ++ d :: tail := by
  rw [List.dropWhile_append]
  split
  · rename_i h
    rw [List.isEmpty_iff.mp h, List.dropWhile_cons_of_neg (by simp [hd]), List.nil_append]
  · rfl

theorem takeWhile_append_stop {p : Char → Bool} (hd : p d = false) (cs tail : List Char) :
    (cs ++ d :: tail).takeWhile p = cs.takeWhile p := by
  induction cs with
  | nil => simp [hd]
  | cons c cs ih =>
    rw [List.cons_append, List.takeWhile_cons, List.takeWhile_cons, ih]

theorem isPrefixOf_append_stop {start : List Char} (hd : d ∉ start) (cs tail : List Char) :
    start.isPrefixOf (cs ++ d :: tail) = start.isPrefixOf cs := by
  induction start generalizing cs with
  | nil => simp
  | cons s start ih =>
    simp only [List.mem_cons, not_or] at hd
    cases cs with
    | nil =>
      have hne : (s == d) = false := by simpa using Ne.symm hd.1
      simp [List.isPrefixOf, hne]
    | cons c cs => simp [List.isPrefixOf, ih hd.2]

theorem drop_append_of_isPrefixOf {start : List Char} (h : start.isPrefixOf cs = true)
    (tail : List Char) : (cs ++ tail).drop start.length = cs.drop start.length ++ tail :=
  List.drop_append_of_le_length (List.isPrefixOf_iff_prefix.mp h).length_le

/-- Two characters that a text with a stop behind it begins with are those of the text. -/
theorem eq_of_append_eq_two {a b : Char} {after : List Char} (ha : d ≠ a) (hb : d ≠ b)
    (h : cs ++ d :: tail = a :: b :: after) :
    ∃ cs', cs = a :: b :: cs' ∧ after = cs' ++ d :: tail := by
  match cs with
  | [] => simp [ha] at h
  | [_] => simp [hb] at h
  | _ :: _ :: cs =>
    simp only [List.cons_append, List.cons.injEq] at h
    obtain ⟨rfl, rfl, rfl⟩ := h
    exact ⟨cs, rfl, rfl⟩

/-! ## Identifiers and suffixes -/

theorem restOfIdentifier?_append (hd : Stop d) (cs tail : List Char) :
    restOfIdentifier? (cs ++ d :: tail) = (restOfIdentifier? cs).map (· ++ d :: tail) := by
  cases cs with
  | nil => simp [restOfIdentifier?, hd.starts]
  | cons c cs =>
    simp only [List.cons_append, restOfIdentifier?]
    split
    · rw [dropWhile_append_stop hd.continues, Option.map_some]
    · rfl

namespace Literal

theorem restOfSuffix_append (hd : Stop d) (cs tail : List Char) :
    restOfSuffix (cs ++ d :: tail) = restOfSuffix cs ++ d :: tail := by
  rw [restOfSuffix, restOfSuffix, restOfIdentifier?_append hd]
  cases restOfIdentifier? cs <;> rfl

/-! ## Quoted texts -/

theorem restOfQuoted?_append {k : Content} {p : Place} (h : restOfQuoted? k p cs = some rest)
    (tail : List Char) : restOfQuoted? k p (cs ++ tail) = some (rest ++ tail) := by
  induction cs generalizing p with
  | nil => simp [restOfQuoted?] at h
  | cons c cs ih =>
    rw [List.cons_append]
    unfold restOfQuoted? at h ⊢
    split
    · rename_i hc
      rw [if_pos hc] at h
      cases h
      rfl
    · rename_i hc
      rw [if_neg hc] at h
      obtain ⟨q, hq, h⟩ := Option.bind_eq_some_iff.mp h
      rw [hq, Option.bind_some]
      exact ih h

theorem restOfRaw?_append {k : Content} {hashes : List Char} {carriage : Bool} (hd : d ∉ hashes)
    (h : restOfRaw? k hashes carriage cs = some rest) (tail : List Char) :
    restOfRaw? k hashes carriage (cs ++ d :: tail) = some (rest ++ d :: tail) := by
  induction cs generalizing carriage with
  | nil => cases carriage <;> simp [restOfRaw?] at h
  | cons c cs ih =>
    rw [List.cons_append]
    cases carriage with
    | true =>
      unfold restOfRaw? at h ⊢
      split
      · rename_i hc
        rw [if_pos hc] at h
        exact ih h
      · rename_i hc
        simp [hc] at h
    | false =>
      unfold restOfRaw? at h ⊢
      rw [isPrefixOf_append_stop hd]
      split
      · rename_i hc
        rw [if_pos hc] at h
        cases h
        rw [drop_append_of_isPrefixOf (Bool.and_eq_true_iff.mp hc).2]
      · rename_i hc
        rw [if_neg hc] at h
        split
        · rename_i hr
          rw [if_pos hr] at h
          exact ih h
        · rename_i hr
          rw [if_neg hr] at h
          split
          · rename_i ha
            rw [if_pos ha] at h
            exact ih h
          · rename_i ha
            simp [ha] at h

theorem restOfHashed?_append {k : Content} (hd : Stop d) (h : restOfHashed? k cs = some rest)
    (tail : List Char) : restOfHashed? k (cs ++ d :: tail) = some (rest ++ d :: tail) := by
  have hhash : d ≠ '#' := hd.ne_punct (by decide)
  unfold restOfHashed? at h ⊢
  rw [takeWhile_append_stop (by simpa using hhash), dropWhile_append_stop (by simpa using hhash)]
  split at h
  · rename_i after hafter
    rw [hafter, List.cons_append]
    dsimp only at h
    split at h
    · rename_i hlen
      refine (if_pos hlen).trans ?_
      refine restOfRaw?_append (fun hmem => hhash ?_) h tail
      simpa using List.mem_takeWhile_imp hmem
    · cases h
  · cases h

/-! ## Single characters -/

theorem restOfApostrophe?_append (hd : Stop d) (cs tail : List Char) :
    restOfApostrophe? (cs ++ d :: tail) = (restOfApostrophe? cs).map (· ++ d :: tail) := by
  have hne : d ≠ '\'' := hd.ne_punct (by decide)
  cases cs with
  | nil => simp [restOfApostrophe?, hne]
  | cons c cs =>
    rw [List.cons_append]
    unfold restOfApostrophe?
    split <;> simp_all

theorem restOfEscaped?_append {k : Content} {p : Place} (hd : Stop d)
    (h : restOfEscaped? k p cs = some rest) (tail : List Char) :
    restOfEscaped? k p (cs ++ d :: tail) = some (rest ++ d :: tail) := by
  induction cs generalizing p with
  | nil => simp [restOfEscaped?] at h
  | cons c cs ih =>
    rw [List.cons_append]
    unfold restOfEscaped? at h ⊢
    split at h <;> rename_i hq
    · rw [restOfApostrophe?_append hd, h, Option.map_some]
    · split at h
      · cases h
      · rename_i hgap
        rw [if_neg hgap]
        exact ih h
    · cases h

theorem restOfCharacter?_append {k : Content} (hd : Stop d) (h : restOfCharacter? k cs = some rest)
    (tail : List Char) : restOfCharacter? k (cs ++ d :: tail) = some (rest ++ d :: tail) := by
  cases cs with
  | nil => simp [restOfCharacter?] at h
  | cons c cs =>
    simp only [List.cons_append, restOfCharacter?] at h ⊢
    split
    · rename_i hc
      rw [if_pos hc] at h
      exact restOfEscaped?_append hd h tail
    · rename_i hc
      rw [if_neg hc] at h
      rw [restOfApostrophe?_append hd]
      split at h
      · rename_i ha
        rw [if_pos ha, h, Option.map_some]
      · cases h

/-! ## Numbers -/

theorem isBreak_append (hd : Stop d) (cs tail : List Char) :
    isBreak (cs ++ d :: tail) = isBreak cs := by
  cases cs with
  | nil => simp [isBreak, hd.continues]
  | cons c cs => rfl

theorem restOfNumber?_append (hd : Stop d) (cs tail : List Char) :
    restOfNumber? (cs ++ d :: tail) = (restOfNumber? cs).map (· ++ d :: tail) := by
  simp only [restOfNumber?, restOfSuffix_append hd, isBreak_append hd]
  split <;> rfl

theorem restOfExponent?_append (hd : Stop d) (bare : Option (List Char)) (sign digit : Bool)
    (cs tail : List Char) :
    restOfExponent? (bare.map (· ++ d :: tail)) sign digit (cs ++ d :: tail) =
      (restOfExponent? bare sign digit cs).map (· ++ d :: tail) := by
  induction cs generalizing sign digit with
  | nil =>
    have hplus : d ≠ '+' := hd.ne_punct (by decide)
    have hminus : d ≠ '-' := hd.ne_punct (by decide)
    have hline : d ≠ '_' := hd.ne_continues (by decide)
    cases digit <;> simp [restOfExponent?, hplus, hminus, hline, hd.digit]
  | cons c cs ih =>
    rw [List.cons_append]
    unfold restOfExponent?
    split
    · split
      · rfl
      · split
        · rfl
        · exact ih true digit
    · split
      · exact ih sign true
      · split
        · exact ih sign digit
        · split <;> rfl

theorem restOfMantissa?_append (hd : Stop d) (point : Bool) (cs tail : List Char) :
    restOfMantissa? point (cs ++ d :: tail) =
      (restOfMantissa? point cs).map (· ++ d :: tail) := by
  induction cs generalizing point with
  | nil =>
    have hpoint : d ≠ '.' := hd.ne_punct (by decide)
    have hline : d ≠ '_' := hd.ne_continues (by decide)
    have hlower : d ≠ 'e' := hd.ne_continues (by decide)
    have hupper : d ≠ 'E' := hd.ne_continues (by decide)
    cases point <;> simp [restOfMantissa?, hpoint, hline, hlower, hupper, hd.digit]
  | cons c cs ih =>
    have hpoint : d ≠ '.' := hd.ne_punct (by decide)
    have hhead : (cs ++ d :: tail).head?.any (fun d => d = '.' || Text.startsIdentifier d) =
        cs.head?.any (fun d => d = '.' || Text.startsIdentifier d) := by
      cases cs <;> simp [hpoint, hd.starts]
    rw [List.cons_append]
    unfold restOfMantissa?
    rw [hhead]
    split
    · exact ih point
    · split
      · split
        · rfl
        · exact ih true
      · split
        · rw [← restOfExponent?_append hd]
          split <;> rfl
        · split <;> rfl

theorem restOfFloat?_append (hd : Stop d) (cs tail : List Char) :
    restOfFloat? (cs ++ d :: tail) = (restOfFloat? cs).map (· ++ d :: tail) := by
  cases cs with
  | nil => simp [restOfFloat?, hd.digit]
  | cons c cs =>
    simp only [List.cons_append, restOfFloat?]
    split
    · rw [restOfMantissa?_append hd]
      cases restOfMantissa? false cs with
      | none => rfl
      | some rest => exact restOfNumber?_append hd rest tail
    · rfl

theorem restOfDigits?_append (hd : Stop d) (base : Nat) (empty : Bool) (cs tail : List Char) :
    restOfDigits? base empty (cs ++ d :: tail) =
      (restOfDigits? base empty cs).map (· ++ d :: tail) := by
  induction cs generalizing empty with
  | nil =>
    have hline : d ≠ '_' := hd.ne_continues (by decide)
    cases empty <;> simp [restOfDigits?, hline, hd.hex, hd.digit]
  | cons c cs ih =>
    rw [List.cons_append]
    unfold restOfDigits?
    split
    · split
      · rfl
      · exact ih empty
    · split
      · exact ih false
      · split <;> rfl

theorem restOfInteger?_append (hd : Stop d) (cs tail : List Char) :
    restOfInteger? (cs ++ d :: tail) = (restOfInteger? cs).map (· ++ d :: tail) := by
  have hzero : d ≠ '0' := by
    rintro rfl
    exact absurd hd.digit (by decide)
  have hx : d ≠ 'x' := hd.ne_continues (by decide)
  have ho : d ≠ 'o' := hd.ne_continues (by decide)
  have hb : d ≠ 'b' := hd.ne_continues (by decide)
  have hnumber (base : Nat) (cs : List Char) :
      (restOfDigits? base true (cs ++ d :: tail)).bind restOfNumber? =
        ((restOfDigits? base true cs).bind restOfNumber?).map (· ++ d :: tail) := by
    rw [restOfDigits?_append hd]
    cases restOfDigits? base true cs with
    | none => rfl
    | some rest => exact restOfNumber?_append hd rest tail
  unfold restOfInteger?
  split
  · obtain ⟨cs, rfl, rfl⟩ := eq_of_append_eq_two hzero hx ‹_›
    exact hnumber 16 cs
  · obtain ⟨cs, rfl, rfl⟩ := eq_of_append_eq_two hzero ho ‹_›
    exact hnumber 8 cs
  · obtain ⟨cs, rfl, rfl⟩ := eq_of_append_eq_two hzero hb ‹_›
    exact hnumber 2 cs
  · rename_i hhex hoctal hbinary
    rw [hnumber 10]
    split
    · exact (hhex _ rfl).elim
    · exact (hoctal _ rfl).elim
    · exact (hbinary _ rfl).elim
    · rfl

/-! ## All literals -/

theorem restOfUnsuffixed?_append (hd : Stop d) (h : restOfUnsuffixed? cs = some rest)
    (tail : List Char) : restOfUnsuffixed? (cs ++ d :: tail) = some (rest ++ d :: tail) := by
  unfold restOfUnsuffixed? at h
  split at h <;> simp only [List.cons_append, restOfUnsuffixed?]
  · exact restOfQuoted?_append h _
  · exact restOfHashed?_append hd h tail
  · exact restOfQuoted?_append h _
  · exact restOfHashed?_append hd h tail
  · exact restOfQuoted?_append h _
  · exact restOfHashed?_append hd h tail
  · exact restOfCharacter?_append hd h tail
  · exact restOfCharacter?_append hd h tail
  · cases h

/-- A number begins with a digit. -/
theorem isDigit_of_restOfFloat? (h : restOfFloat? (c :: cs) = some rest) : c.isDigit = true := by
  unfold restOfFloat? at h
  split at h <;> simp_all

theorem isDigit_of_hexValue? {n : Nat} (h : hexValue? c = some n) (hn : n < 10) :
    c.isDigit = true := by
  unfold hexValue? at h
  split at h
  · assumption
  · split at h
    · simp only [Option.some.injEq] at h
      omega
    · split at h <;> simp only [Option.some.injEq, reduceCtorEq] at h
      omega

theorem isDigit_of_restOfInteger? (h : restOfInteger? (c :: cs) = some rest) :
    c.isDigit = true := by
  unfold restOfInteger? at h
  split at h
  · simp_all
  · simp_all
  · simp_all
  · obtain ⟨digits, hdigits, -⟩ := Option.bind_eq_some_iff.mp h
    simp only [restOfDigits?, Bool.true_and, decide_true, if_true, Bool.or_true] at hdigits
    split at hdigits
    · cases hdigits
    · split at hdigits
      · rename_i hvalue
        obtain ⟨n, hn, hlt⟩ := (Option.any_eq_true ..).mp hvalue
        exact isDigit_of_hexValue? hn (by simpa using hlt)
      · cases hdigits

/-- A text or a character does not begin with a digit. -/
theorem restOfUnsuffixed?_eq_none (hc : c.isDigit = true) (cs : List Char) :
    restOfUnsuffixed? (c :: cs) = none := by
  unfold restOfUnsuffixed?
  split <;> simp_all

theorem rest?_append (hd : Stop d) (h : rest? cs = some rest) (tail : List Char) :
    rest? (cs ++ d :: tail) = some (rest ++ d :: tail) := by
  unfold rest? at h ⊢
  cases hquoted : restOfUnsuffixed? cs with
  | some after =>
    rw [hquoted] at h
    cases h
    rw [restOfUnsuffixed?_append hd hquoted, Option.map_some, Option.some_or,
      restOfSuffix_append hd]
  | none =>
    rw [hquoted, Option.map_none, Option.none_or] at h
    cases cs with
    | nil => cases h
    | cons c cs =>
      have hc : c.isDigit = true := by
        rcases Option.or_eq_some_iff.mp h with hfloat | ⟨-, hinteger⟩
        · exact isDigit_of_restOfFloat? hfloat
        · exact isDigit_of_restOfInteger? hinteger
      rw [List.cons_append, restOfUnsuffixed?_eq_none hc, Option.map_none, Option.none_or,
        ← List.cons_append, restOfFloat?_append hd, restOfInteger?_append hd, ← Option.map_or, h,
        Option.map_some]

/-- What begins with no digit is no number. -/
theorem rest?_eq_none (hc : c.isDigit = false) (h : restOfUnsuffixed? (c :: cs) = none) :
    rest? (c :: cs) = none := by
  have hfloat : restOfFloat? (c :: cs) = none :=
    Option.eq_none_iff_forall_ne_some.mpr fun _ h => by simp [isDigit_of_restOfFloat? h] at hc
  have hinteger : restOfInteger? (c :: cs) = none :=
    Option.eq_none_iff_forall_ne_some.mpr fun _ h => by simp [isDigit_of_restOfInteger? h] at hc
  rw [rest?, h, hfloat, hinteger]
  rfl

end Literal
end
end RunLoop.Attribute
