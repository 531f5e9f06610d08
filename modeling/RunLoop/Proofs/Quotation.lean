import RunLoop.Proofs.StringLiteral
import RunLoop.Text.Quoted

/-!
# Texts in double quotes are literals

What is shown of a text between double quotes is a string literal, and it denotes the text: every
escape stands for the character that it was made of, and no quote ends the literal early.

* `Literal.codePoint_hex`: hexadecimal digits write the code point of their character.
* `Literal.Spelled.escape_append`: a character as it stands between the quotes denotes itself.
* `Literal.denotes_quote`: a text in double quotes denotes the text.
-/

namespace RunLoop.Attribute.Literal

open Text.Quoted

theorem exists_digits (n : Nat) :
    ∃ digits : List Nat, (hex n).map hexValue? = digits.map some ∧ hexNumber 0 digits = n := by
  have hdigit : ∀ d < 16, hexValue? d.digitChar = some d := by decide
  unfold hex
  induction n using Nat.strongRecOn with
  | ind n ih =>
    rw [Nat.toDigits_eq_if (by decide)]
    split
    · rename_i hn
      exact ⟨[n], by simp [hdigit n hn], by simp [hexNumber]⟩
    · obtain ⟨digits, hdigits, hvalue⟩ := ih (n / 16) (by omega)
      have hlast : n % 16 < 16 := Nat.mod_lt n (by decide)
      have happend : hexNumber 0 (digits ++ [n % 16]) = 16 * hexNumber 0 digits + n % 16 := by
        simp [hexNumber]
      refine ⟨digits ++ [n % 16], by simp [hdigits, hdigit _ hlast], ?_⟩
      rw [happend, hvalue, Nat.div_add_mod]

/-- Hexadecimal digits write the code point of their character. -/
theorem codePoint_hex (c : Char) : CodePoint 0 0 (hex c.toNat) c := by
  obtain ⟨digits, hdigits, hvalue⟩ := exists_digits c.toNat
  have hline : '_' ∉ hex c.toNat := by
    intro hmem
    obtain ⟨d, -, hd⟩ := List.mem_map.mp (hdigits ▸ List.mem_map_of_mem hmem)
    exact absurd hd (by simp [show hexValue? '_' = none from rfl])
  have hlength : digits.length = (hex c.toNat).length := by
    simpa using (congrArg List.length hdigits).symm
  have hpos : 0 < (hex c.toNat).length := List.length_pos_iff.mpr Nat.toDigits_ne_nil
  have hsix : (hex c.toNat).length ≤ 6 := by
    have hcode := isCodePoint_toNat c
    simp only [isCodePoint, Bool.or_eq_true, decide_eq_true_eq, Bool.and_eq_true] at hcode
    exact (Nat.length_toDigits_le_iff (by decide) (by decide)).mpr (by omega)
  have hfilter : (hex c.toNat).filter (· ≠ '_') = hex c.toNat := by
    refine List.filter_eq_self.mpr fun d hd => decide_eq_true ?_
    rintro rfl
    exact hline hd
  exact ⟨fun _ hhead => hline (List.mem_of_mem_head? hhead), digits, hfilter.symm ▸ hdigits,
    by omega, by omega, hvalue⟩

/-- A character as it stands between the quotes denotes itself. -/
theorem Spelled.escape_append {cs v rest : List Char} (c : Char) (h : Spelled cs v rest) :
    Spelled (Text.Quoted.escape c ++ cs) (c :: v) rest := by
  have hletter {a : Char} (ha : (a, c) ∈ escapes) : Spelled ('\\' :: a :: cs) (c :: v) rest :=
    .escape (.letter ha) h
  unfold Text.Quoted.escape
  split_ifs with hquote hslash hfeed hreturn htab hnul hshown
  · exact hletter (by simp [hquote, escapes])
  · exact hletter (by simp [hslash, escapes])
  · exact hletter (by simp [hfeed, escapes])
  · exact hletter (by simp [hreturn, escapes])
  · exact hletter (by simp [htab, escapes])
  · exact hletter (by simp [hnul, escapes])
  · exact .self (by simp [hquote, hslash, hreturn]) h
  · have hcode : Escape ('u' :: '\x7b' :: (hex c.toNat ++ '\x7d' :: cs)) [c] cs :=
      .code (codePoint_hex c)
    simpa using Spelled.escape hcode h

/-- A text in double quotes is a literal that denotes the text. -/
theorem denotes_quote (t : String) : Denotes (quote t).toList t.toList [] := by
  have hspelled (cs : List Char) : Spelled (cs.flatMap Text.Quoted.escape ++ ['"']) cs [] := by
    induction cs with
    | nil => exact .close
    | cons c cs ih =>
      rw [List.flatMap_cons, List.append_assoc]
      exact ih.escape_append c
  rw [quote, String.toList_ofList, List.cons_append]
  exact .quoted (hspelled t.toList) (.inl rfl)

end RunLoop.Attribute.Literal
