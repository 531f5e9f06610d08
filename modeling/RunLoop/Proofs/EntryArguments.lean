import RunLoop.Proofs.EntryAttribute
import RunLoop.Proofs.Quotation

/-!
# The arguments of an entry attribute

The attribute `main` accepts no arguments or the name of the loop, a string literal of any content.
The name is the argument of a call in what the attribute makes, the same token as before. All other
arguments make one error of every function, and the literal in it denotes the message.

* `nameArgs` are the arguments of the grammar, `Accepts` says which ones the attribute takes.
* `exists_beginning`: whatever the body is, the text of the wrapper begins by building the loop.
* `NamesLoop` is what is made of a function when the arguments are accepted, `Rejects` when they are
  not.
* `main_accepts_strings`: the attribute accepts the arguments of the grammar and no others.
-/

namespace RunLoop.Attribute

open Token Piece

/-- The text is a literal, all of it. -/
def IsLiteral (t : String) : Prop :=
  Literal.rest? t.toList = some []

/-- A string literal: it denotes a text. -/
def IsString (t : String) : Prop :=
  ∃ v suffix, Literal.Denotes t.toList v suffix

/-- No arguments, or those that name the loop by a literal; `joint` says that nothing lies between
the equals sign and what follows. -/
def nameArgs (joint : Bool) : Option String → List Token
  | none => []
  | some t => [ident "name", punct '=' joint, literal t]

/-- The attribute accepts the arguments: it makes something else than an error of some function. -/
def Accepts (args : List Token) : Prop :=
  ∃ item, ∀ message, expandMain args item ≠ compileError message

/-! ## String literals -/

theorem IsString.isStringLiteral {t : String} (h : IsString t) : isStringLiteral t = true := by
  obtain ⟨v, suffix, h⟩ := h
  unfold Attribute.isStringLiteral
  generalize t.toList = cs at h
  cases h with
  | quoted => rfl
  | @raw n =>
    cases n with
    | zero => rfl
    | succ n => rfl

theorem IsLiteral.isString {t : String} (h : IsLiteral t) (hstring : isStringLiteral t = true) :
    IsString t := by
  obtain ⟨c, cs, hcs, hc⟩ := first_of_isStringLiteral hstring
  rw [IsLiteral, hcs] at h
  rw [IsString, hcs]
  exact Literal.exists_denotes hc h

theorem IsString.leaf? {t : String} (h : IsString t) :
    leaf? t.toList = some (literal t, []) := by
  obtain ⟨v, suffix, h⟩ := h
  simp [Piece.leaf?, Literal.rest?_of_denotes h, before]

/-- A string literal is read back as it was. -/
theorem IsString.readsBack {t : String} (h : IsString t) : ReadsBack [literal t] := by
  obtain ⟨c, cs, hcs, hc⟩ := first_of_isStringLiteral h.isStringLiteral
  have hprint : print [literal t] = t := String.ofList_toList
  have hnext : next? t.toList = some ([leaf (literal t)], []) := by
    rw [hcs, next?_of_first cs hc, ← hcs, h.leaf?]
    rfl
  have hscan : scan? t.toList = some [leaf (literal t)] := scan?_step hnext (by simp [hcs]) rfl
  rw [ReadsBack, hprint]
  exact lex?_eq_some.mpr ⟨_, hscan, rfl⟩

/-! ## What the arguments say -/

theorem loopName_nameArgs {joint : Bool} {name : Option String}
    (h : ∀ t ∈ name, isStringLiteral t = true) : loopName (nameArgs joint name) = .ok name := by
  cases name with
  | none => rfl
  | some t => simp [nameArgs, loopName, h t rfl]

theorem nameArgs_of_loopName {args : List Token} {name : Option String}
    (h : loopName args = .ok name) : ∃ joint, args = nameArgs joint name := by
  unfold loopName at h
  split at h
  · cases h
    exact ⟨false, rfl⟩
  · split at h
    · rename_i hkey
      split at h
      · cases h
        exact ⟨_, by rw [hkey.1, hkey.2]; rfl⟩
      · cases h
    · cases h
  · cases h

/-- Arguments are refused for a literal that is no string, or because they name nothing. -/
theorem obstacle_of_loopName {args : List Token} {o : Obstacle} (h : loopName args = .error o) :
    (∃ joint t, args = nameArgs joint (some t) ∧ o = .name t) ∨
      (∀ joint t, args ≠ nameArgs joint (some t)) ∧ o = .arguments := by
  unfold loopName at h
  split at h
  · cases h
  · split at h
    · rename_i hkey
      split at h
      · cases h
      · cases h
        exact .inl ⟨_, _, by rw [hkey.1, hkey.2]; rfl, rfl⟩
    · rename_i hkey
      cases h
      refine .inr ⟨fun joint t heq => hkey ?_, rfl⟩
      simp only [nameArgs, List.cons.injEq, ident.injEq, punct.injEq] at heq
      exact ⟨heq.1, heq.2.1.1⟩
  · rename_i hother
    cases h
    exact .inr ⟨fun joint t heq => hother _ _ _ _ heq, rfl⟩

/-! ## What begins the body -/

/-- The statement that builds the loop. -/
def loopStatement (name : Option String) : List Token :=
  [ident "let", ident "event_loop", punct '=' false] ++ builderTokens name ++ [punct ';' false]

/-- Whatever the body is, the text of the wrapper begins with the statement that builds the loop. -/
theorem exists_beginning {name : Option String} {body : String} {ts : List Token}
    (hname : ∀ t ∈ name, IsString t) (h : lex? (mainText name body) = some ts) :
    ∃ more rest, ts = group .brace (loopStatement name ++ more) :: rest := by
  obtain ⟨builder, hbuilder, hbuilder'⟩ := lex?_eq_some.mp
    (lex?_builder fun t ht => ⟨(hname t ht).isStringLiteral, (hname t ht).readsBack⟩)
  obtain ⟨pieces, hpieces, hnest⟩ := lex?_eq_some.mp h
  have hindent : "            let event_loop = ".toList =
      List.replicate 12 ' ' ++ "let event_loop = ".toList := by decide
  let head := ["\x7b", "            let event_loop = " ++ builderText name ++ ";"]
  have hhead : scan? ("\n".intercalate head).toList =
      some (List.flatten [[opening .brace], builder]) := by
    refine scan?_lines (.cons (by rfl) (.cons ?_ .nil))
    rw [← hbuilder]
    simp only [String.toList_append, List.append_assoc, hindent, scan?_indent]
  have htext : ∃ tail, (mainText name body).toList =
      ("\n".intercalate head).toList ++ '\n' :: tail := by
    have hfeed : "\n".toList = ['\n'] := by decide
    simp only [mainText, head, String.intercalate_cons_cons, String.intercalate_singleton,
      String.toList_append, hfeed, List.append_assoc, List.cons_append, List.nil_append]
    exact ⟨_, rfl⟩
  obtain ⟨tail, htext⟩ := htext
  rw [htext] at hpieces
  -- The line feed behind the statement is a stop, so the body does not reach into it.
  obtain ⟨later, rfl⟩ := prefix_of_scanWithin? stop_lineFeed (by decide) (.inl rfl) hhead hpieces
  have hopen : nestIn? [(.brace, [])] (loopStatement name).reverse later = some ts := by
    have hmade := nestIn?_append [(.brace, [])] [] hbuilder' later
    rw [List.append_nil] at hmade
    exact hmade.symm.trans (by simpa [nest?, nestIn?] using hnest)
  obtain ⟨more, rest, hrest⟩ :=
    @beginsWith_of_nestIn? [(.brace, [])] (loopStatement name).reverse [] [] ts later hopen
  exact ⟨more, rest, by simpa using hrest.symm⟩

/-! ## What is made of a function -/

section

variable {args item before body after ts : List Token} {name : Option String}

theorem expandMain_of_error {o : Obstacle} (h : loopName args = .error o) (item : List Token) :
    expandMain args item = compileError (o.message "main") := by
  rw [expandMain, h]
  rfl

theorem expandMain_of_ok (h : loopName args = .ok name)
    (hwrap : wrap (mainText name) item = .ok ts) :
    expandMain args item = ts := by
  rw [expandMain, h, Except.bind, hwrap]

theorem expandMain_of_wrap_error {o : Obstacle} (h : loopName args = .ok name)
    (hwrap : wrap (mainText name) item = .error o) :
    expandMain args item = compileError (o.message "main") := by
  rw [expandMain, h, Except.bind, hwrap]

theorem wrap_eq_text {wrapper : String → String} (hafter : ∀ b, group .brace b ∉ after)
    (h : lex? (wrapper (print body)) = none) :
    wrap wrapper (before ++ group .brace body :: after) = .error .text := by
  obtain ⟨before', after', hremove, hsub⟩ := removeAsync_append before after .brace
  have hafter' (b : List Token) : group .brace b ∉ after' := fun hb => hafter b (hsub hb)
  simp only [wrap, hremove, splitBody?_append hafter', h]

/-- What `main` makes of a function, `item`, when it accepts its arguments: the loop has the literal
for its name, if there is one. -/
structure NamesLoop (name : Option String) (item expansion : List Token) : Prop where
  noBody : (∀ b, group .brace b ∉ item) → expansion = compileError (Obstacle.body.message "main")
  body {before body after : List Token} : item = before ++ group .brace body :: after →
    (∀ b, group .brace b ∉ after) →
    expansion = compileError (Obstacle.text.message "main") ∧ lex? (print body) = none ∨
    ∃ more rest, expansion = (before ++ group .brace
      (group .brace (loopStatement name ++ more) :: rest) :: after).eraseP (isIdent "async")
  /-- Where the body alone has tokens, nothing but the wrapper is around them. -/
  tokens {before body after ts : List Token} : item = before ++ group .brace body :: after →
    (∀ b, group .brace b ∉ after) → lex? (print body) = some ts →
    expansion = (before ++ group .brace [mainBlock name ts] :: after).eraseP (isIdent "async")

theorem namesLoop_expandMain {joint : Bool} (hname : ∀ t ∈ name, IsString t) (item : List Token) :
    NamesLoop name item (expandMain (nameArgs joint name) item) := by
  have hok : loopName (nameArgs joint name) = .ok name :=
    loopName_nameArgs fun t ht => (hname t ht).isStringLiteral
  have hread {body : String} {ts : List Token} (h : lex? body = some ts) :
      lex? (mainText name body) = some [mainBlock name ts] :=
    lex?_mainText (fun t ht => ⟨(hname t ht).isStringLiteral, (hname t ht).readsBack⟩) h
  refine ⟨fun h => expandMain_of_wrap_error hok ((wrap_eq_error _).mpr h), ?_, ?_⟩
  · rintro before body after rfl hafter
    cases htokens : lex? (mainText name (print body)) with
    | none =>
      refine .inl ⟨expandMain_of_wrap_error hok (wrap_eq_text hafter htokens), ?_⟩
      refine Option.eq_none_iff_forall_ne_some.mpr fun ts hts => ?_
      simp [hread hts] at htokens
    | some ts =>
      obtain ⟨more, rest, rfl⟩ := exists_beginning hname htokens
      exact .inr ⟨more, rest, expandMain_of_ok hok (wrap_eq_ok hafter htokens)⟩
  · rintro before body after ts rfl hafter hts
    exact expandMain_of_ok hok (wrap_eq_ok hafter (hread hts))

/-! ## Errors -/

/-- The text of an error. -/
def errorText (message : String) : String :=
  "compile_error!(" ++ Text.Quoted.quote message ++ ");"

theorem isString_quote (message : String) : IsString (Text.Quoted.quote message) :=
  ⟨_, _, Literal.denotes_quote message⟩

theorem lex?_compileError (message : String) :
    lex? (errorText message) = some (compileError message) := by
  have hquote := isString_quote message
  have hopen : "compile_error!(".toList = "compile_error!".toList ++ ['('] := by decide
  have hclose : ");".toList = ')' :: ";".toList := by decide
  have hcall : scan? "compile_error!".toList =
      some [leaf (ident "compile_error"), leaf (punct '!' false)] := by rfl
  have hend : scan? ";".toList = some [leaf (punct ';' false)] := by rfl
  have hargument := scan?_argument hquote.isStringLiteral hquote.leaf? hend
  have hscan := scan?_append stop_opening (by decide) (.inr (by rfl)) hcall hargument
  have htext : (errorText message).toList = "compile_error!".toList ++
      '(' :: ((Text.Quoted.quote message).toList ++ ')' :: ";".toList) := by
    unfold errorText
    simp only [String.toList_append, hopen, hclose, List.append_assoc, List.cons_append,
      List.nil_append]
  exact lex?_eq_some.mpr ⟨_, (congrArg scan? htext).trans hscan, rfl⟩

/-- What `main` makes of every function when it does not accept its arguments: one error, which
denotes a message about the arguments. -/
structure Rejects (args : List Token) (message : String) : Prop where
  literal {joint : Bool} {t : String} : args = nameArgs joint (some t) →
    message = (Obstacle.name t).message "main"
  other : (∀ joint t, args ≠ nameArgs joint (some t)) →
    message = Obstacle.arguments.message "main"
  ne_body : message ≠ Obstacle.body.message "main"
  expansion (item : List Token) : expandMain args item = compileError message
  text : lex? (errorText message) = some (compileError message)
  denotes {v suffix : List Char} :
    Literal.Denotes (Text.Quoted.quote message).toList v suffix ↔ v = message.toList ∧ suffix = []

theorem message_name_ne_body (t : String) :
    (Obstacle.name t).message "main" ≠ Obstacle.body.message "main" := by
  intro h
  have htext : ("#[taskbridge::".toList ++ "main".toList) ++
      "] expects a string name, found `".toList =
      "#[taskbridge::main] expects a string".toList ++ " name, found `".toList := by decide
  have hstart : "#[taskbridge::main] expects a string".toList <+:
      ((Obstacle.name t).message "main").toList := by
    unfold Obstacle.message
    simp only [String.toList_append, htext, List.append_assoc, List.prefix_append]
  rw [h] at hstart
  exact absurd hstart (by decide)

theorem denotes_quote_iff {message : String} {v suffix : List Char} :
    Literal.Denotes (Text.Quoted.quote message).toList v suffix ↔
      v = message.toList ∧ suffix = [] := by
  refine ⟨fun h => h.unique (Literal.denotes_quote message), ?_⟩
  rintro ⟨rfl, rfl⟩
  exact Literal.denotes_quote message

theorem exists_rejects {o : Obstacle} (h : loopName args = .error o) :
    ∃ message, Rejects args message := by
  have hrejects (hliteral : ∀ {joint t}, args = nameArgs joint (some t) → o = .name t)
      (hother : (∀ joint t, args ≠ nameArgs joint (some t)) → o = .arguments)
      (hbody : o.message "main" ≠ Obstacle.body.message "main") :
      Rejects args (o.message "main") :=
    { literal := fun heq => by rw [hliteral heq]
      other := fun hne => by rw [hother hne]
      ne_body := hbody
      expansion := expandMain_of_error h
      text := lex?_compileError _
      denotes := denotes_quote_iff }
  refine ⟨o.message "main", ?_⟩
  rcases obstacle_of_loopName h with ⟨joint, t, rfl, rfl⟩ | ⟨hne, rfl⟩
  · refine hrejects (fun heq => ?_) (fun hne => (hne _ _ rfl).elim) (message_name_ne_body t)
    simp only [nameArgs, List.cons.injEq, literal.injEq] at heq
    rw [heq.2.2.1]
  · exact hrejects (fun heq => (hne _ _ heq).elim) (fun _ => rfl) (by decide)

/-! ## Which arguments are accepted -/

theorem accepts_of_isString {joint : Bool} (hname : ∀ t ∈ name, IsString t) :
    Accepts (nameArgs joint name) := by
  refine ⟨[group .brace []], fun message heq => ?_⟩
  have hempty : lex? (print []) = some [] := by rfl
  have hmade := (@namesLoop_expandMain name joint hname [group .brace []]).tokens
    (List.nil_append _).symm (by simp) hempty
  rw [hmade] at heq
  simp [compileError, isIdent] at heq

theorem Rejects.not_accepts {message : String} (h : Rejects args message) : ¬ Accepts args :=
  fun ⟨item, hitem⟩ => hitem message (h.expansion item)

/-- The attribute `main` accepts no arguments or a string literal that names the loop. The literal
is where the loop is built then. Of other arguments it makes one error, whatever the function is. -/
theorem main_accepts_strings (hargs : ∀ t, literal t ∈ args → IsLiteral t) :
    (Accepts args ↔ ∃ joint name, args = nameArgs joint name ∧ ∀ t ∈ name, IsString t) ∧
    (∀ joint name, args = nameArgs joint name → (∀ t ∈ name, IsString t) →
      (∀ t ∈ name, ∃! v, ∃ suffix, Literal.Denotes t.toList v suffix) ∧
      ∀ item, NamesLoop name item (expandMain args item)) ∧
    (¬ Accepts args → ∃ message, Rejects args message) := by
  have hcases : (∃ joint name, args = nameArgs joint name ∧ ∀ t ∈ name, IsString t) ∨
      ∃ message, Rejects args message := by
    cases hloop : loopName args with
    | error o => exact .inr (exists_rejects hloop)
    | ok name =>
      obtain ⟨joint, rfl⟩ := nameArgs_of_loopName hloop
      refine .inl ⟨joint, name, rfl, fun t ht => ?_⟩
      cases ht
      exact (hargs t (by simp [nameArgs])).isString (isStringLiteral_of_loopName hloop t rfl)
  refine ⟨⟨fun haccepts => ?_, ?_⟩, ?_, fun hnot => ?_⟩
  · refine hcases.resolve_right ?_
    rintro ⟨message, hrejects⟩
    exact hrejects.not_accepts haccepts
  · rintro ⟨joint, name, rfl, hname⟩
    exact accepts_of_isString hname
  · rintro joint name rfl hname
    refine ⟨fun t ht => ?_, namesLoop_expandMain hname⟩
    obtain ⟨v, suffix, hv⟩ := hname t ht
    exact ⟨v, ⟨suffix, hv⟩, fun v' ⟨suffix', hv'⟩ => (hv'.unique hv).1⟩
  · refine hcases.resolve_left ?_
    rintro ⟨joint, name, rfl, hname⟩
    exact hnot (accepts_of_isString hname)

end

/-- The arguments `name = r#"a"b"#`. -/
def rawArgs : List Token :=
  nameArgs false (some "r#\"a\"b\"#")

/-- The arguments `name = b"\""`, which are bytes. -/
def bytesArgs : List Token :=
  nameArgs false (some "b\"\\\"\"")

theorem main_accepts_strings_of_raw :
    (∀ t, literal t ∈ rawArgs → IsLiteral t) ∧ Accepts rawArgs ∧
      (∃! v, ∃ suffix, Literal.Denotes "r#\"a\"b\"#".toList v suffix) ∧
      expandMain rawArgs [ident "fn", ident "f", group .parenthesis [], group .brace []] =
        [ident "fn", ident "f", group .parenthesis [],
          group .brace [mainBlock (some "r#\"a\"b\"#") []]] ∧
      (∀ t, literal t ∈ bytesArgs → IsLiteral t) ∧ ¬ Accepts bytesArgs ∧
      expandMain bytesArgs [] =
        compileError "#[taskbridge::main] expects a string name, found `b\"\\\"\"`" := by
  have hraw : ∀ t, literal t ∈ rawArgs → IsLiteral t := by
    simpa [rawArgs, nameArgs] using (by rfl : IsLiteral "r#\"a\"b\"#")
  have hbytes : ∀ t, literal t ∈ bytesArgs → IsLiteral t := by
    simpa [bytesArgs, nameArgs] using (by rfl : IsLiteral "b\"\\\"\"")
  have hname : ∀ t ∈ some "r#\"a\"b\"#", IsString t := by
    rintro t ⟨⟩
    exact IsLiteral.isString (by rfl) (by decide)
  obtain ⟨haccepts, hnames, -⟩ := main_accepts_strings hraw
  obtain ⟨hvalue, hmade⟩ := hnames false _ rfl hname
  have hempty : lex? (print []) = some [] := by rfl
  have hexpansion := (hmade [ident "fn", ident "f", group .parenthesis [], group .brace []]).tokens
    (show _ = [ident "fn", ident "f", group .parenthesis []] ++ group .brace [] :: [] from rfl)
    (by simp) hempty
  have hrejected : ¬ Accepts bytesArgs := by
    rw [(main_accepts_strings hbytes).1]
    rintro ⟨joint, name, hargs, hstring⟩
    cases name with
    | none => cases hargs
    | some t =>
      obtain ⟨-, rfl⟩ : false = joint ∧ "b\"\\\"\"" = t := by
        simpa [bytesArgs, nameArgs] using hargs
      exact absurd (hstring _ rfl).isStringLiteral (by decide)
  obtain ⟨message, hmessage⟩ := (main_accepts_strings hbytes).2.2 hrejected
  have htext : message = "#[taskbridge::main] expects a string name, found `b\"\\\"\"`" :=
    (hmessage.literal rfl).trans (by decide)
  exact ⟨hraw, haccepts.mpr ⟨false, _, rfl, hname⟩, hvalue _ rfl, hexpansion, hbytes, hrejected,
    htext ▸ hmessage.expansion []⟩

end RunLoop.Attribute
