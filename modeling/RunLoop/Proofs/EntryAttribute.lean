import RunLoop.Attribute.Expand
import RunLoop.Proofs.TokenText

/-!
# What an entry attribute makes of a function

The attribute `main` writes the body of a function into a text and takes the tokens of that text as
the new body. Where the tokens of the old body are read back from their text as they were, the new
body has them once, in one place and in their order, and around the body nothing changes but the
first `async`.

* `mainBlock` is the new body around the old one.
* `ReadsBack` says that tokens are read back from their text as they were.
* `lex?_mainText`: the tokens of the text of the wrapper.
* `main_keeps_tokens`: what `main` makes of a function.
-/

namespace RunLoop.Attribute

open Token Piece

/-! ## The wrapper -/

/-- The tokens that build a loop, named by a literal if there is one. -/
def builderTokens (name : Option String) : List Token :=
  [punct ':' true, punct ':' false, ident "taskbridge", punct ':' true, punct ':' false,
    ident "EventLoopBuilder", punct ':' true, punct ':' false, ident "new",
    group .parenthesis []] ++
  (name.map fun t => [punct '.' false, ident "name", group .parenthesis [literal t]]).getD [] ++
  [punct '.' false, ident "build", group .parenthesis []]

/-- The block that builds a loop and runs a body on it; `message` is the literal of what it says
when it cannot. -/
def loopBlock (message : String) (name : Option String) (body : List Token) : Token :=
  group .brace (
    [ident "let", ident "event_loop", punct '=' false] ++ builderTokens name ++ [punct ';' false,
      ident "let", ident "output", punct '=' false, ident "event_loop", punct '.' false,
      ident "block_on", group .parenthesis [ident "async", ident "move", group .brace body],
      punct '.' false, ident "expect", group .parenthesis [literal message], punct ';' false,
      ident "output"])

/-- The block that `main` makes of a body. -/
def mainBlock (name : Option String) (body : List Token) : Token :=
  loopBlock "\"#[taskbridge::main] must not run inside another event loop\"" name body

/-- The tokens are read back from their text as they were. -/
def ReadsBack (ts : List Token) : Prop :=
  lex? (print ts) = some ts

/-! ## The argument -/

theorem isStringLiteral_of_loopName {args : List Token} {name : Option String}
    (h : loopName args = .ok name) : ∀ t ∈ name, isStringLiteral t = true := by
  unfold loopName at h
  split at h
  · cases h
    simp
  · split at h
    · split at h
      · cases h
        simpa using ‹_›
      · cases h
    · cases h
  · cases h

theorem first_of_isStringLiteral {t : String} (h : isStringLiteral t = true) :
    ∃ c cs, t.toList = c :: cs ∧ (c = '"' ∨ c = 'r') := by
  simp only [isStringLiteral, List.any_cons, List.any_nil, Bool.or_false, Bool.or_eq_true] at h
  cases hcs : t.toList with
  | nil => simp [hcs] at h
  | cons c cs =>
    simp only [hcs, List.isPrefixOf, Bool.and_eq_true, beq_iff_eq] at h
    refine ⟨c, cs, rfl, ?_⟩
    rcases h with ⟨h, -⟩ | ⟨h, -⟩ | ⟨h, -⟩
    · exact .inl h.symm
    · exact .inr h.symm
    · exact .inr h.symm

/-- Where a string begins, a token is next. -/
theorem next?_of_first {c : Char} (cs : List Char) (hc : c = '"' ∨ c = 'r') :
    next? (c :: cs) = (leaf? (c :: cs)).map fun found => ([leaf found.1], found.2) := by
  rcases hc with rfl | rfl
  · rfl
  · rfl

/-- A string that is read back as it was is one token, up to its end. -/
theorem leaf?_of_readsBack {t : String} (hstring : isStringLiteral t = true)
    (h : ReadsBack [literal t]) : leaf? t.toList = some (literal t, []) := by
  have hprint : print [literal t] = t := String.ofList_toList
  rw [ReadsBack, hprint] at h
  obtain ⟨pieces, hscan, hnest⟩ := lex?_eq_some.mp h
  obtain ⟨c, cs, hcs, hc⟩ := first_of_isStringLiteral hstring
  have hnext := next?_of_first cs hc
  rw [hcs] at hscan ⊢
  simp only [scan?, List.length_cons, scanWithin?, hnext] at hscan
  cases hleaf : leaf? (c :: cs) with
  | none => simp [hleaf] at hscan
  | some found =>
    obtain ⟨first, rest⟩ := found
    simp only [hleaf, Option.map_some] at hscan
    obtain ⟨later, -, rfl⟩ := Option.map_eq_some_iff.mp hscan
    -- Whatever is read behind the first token comes behind it, so this one is the literal.
    have hfirst : [first] <+: [literal t] := @beginsWith_of_nestIn? [] [first] [] [] _ _ hnest
    obtain rfl : first = literal t := by
      obtain ⟨more, hmore⟩ := hfirst
      exact (List.cons.inj hmore).1
    have htext := congrArg String.toList (leaf?_eq_literal hleaf)
    rw [before, String.toList_ofList, hcs] at htext
    have hlen := congrArg List.length htext
    rw [List.length_take, List.length_cons] at hlen
    rw [List.eq_nil_of_length_eq_zero (l := rest) (by omega)]

/-- The name of a loop is an argument of its own. -/
theorem scan?_argument {t : String} (hstring : isStringLiteral t = true)
    (hleaf : leaf? t.toList = some (literal t, [])) {rest : List Char} {later : List Piece}
    (hrest : scan? rest = some later) : scan? ('(' :: (t.toList ++ ')' :: rest)) =
      some (opening .parenthesis :: leaf (literal t) :: closing .parenthesis :: later) := by
  obtain ⟨c, cs, hcs, hc⟩ := first_of_isStringLiteral hstring
  have hopen : next? ('(' :: (t.toList ++ ')' :: rest)) =
      some ([opening .parenthesis], t.toList ++ ')' :: rest) := by
    rw [hcs]
    rcases hc with rfl | rfl
    · rfl
    · rfl
  have hname : next? (t.toList ++ ')' :: rest) = some ([leaf (literal t)], ')' :: rest) := by
    have hleaf' := leaf?_append stop_closing hleaf rest
    rw [hcs] at hleaf' ⊢
    rw [List.cons_append, next?_of_first _ hc, ← List.cons_append, hleaf']
    rfl
  have hclose : scan? (')' :: rest) = some ([closing .parenthesis] ++ later) :=
    scan?_step rfl (by simp) hrest
  refine scan?_step hopen (by simp) (scan?_step hname ?_ hclose)
  simp only [hcs, List.cons_append, List.length_cons, List.length_append]
  omega

/-- The text that begins to build a loop, up to the parentheses of its first call. -/
theorem scan?_builder {tail : List Char} {later : List Piece}
    (h : scan? ('(' :: ')' :: tail) = some later) :
    scan? ("let event_loop = ".toList ++ ("::taskbridge::EventLoopBuilder::new()".toList ++ tail)) =
      some ([leaf (ident "let"), leaf (ident "event_loop"), leaf (punct '=' false),
        leaf (punct ':' true), leaf (punct ':' false), leaf (ident "taskbridge"),
        leaf (punct ':' true), leaf (punct ':' false), leaf (ident "EventLoopBuilder"),
        leaf (punct ':' true), leaf (punct ':' false), leaf (ident "new")] ++ later) := by
  have htext : "let event_loop = ".toList ++ "::taskbridge::EventLoopBuilder::new()".toList =
      "let event_loop = ::taskbridge::EventLoopBuilder::new".toList ++ ['(', ')'] := by
    decide
  rw [← List.append_assoc, htext, List.append_assoc]
  -- An opening parenthesis is a stop, so the text in front of it is cut alone.
  exact scan?_append stop_opening (by decide) (.inr (by rfl)) (by rfl) h

theorem lex?_builder {name : Option String}
    (hname : ∀ t ∈ name, isStringLiteral t = true ∧ ReadsBack [literal t]) :
    lex? ("let event_loop = " ++ builderText name ++ ";") =
      some ([ident "let", ident "event_loop", punct '=' false] ++ builderTokens name ++
        [punct ';' false]) := by
  have hbuild : ".build()".toList ++ ";".toList = ".build();".toList := by decide
  unfold lex? builderText
  simp only [String.toList_append, List.append_assoc, hbuild]
  cases name with
  | none =>
    have hrest : scan? ('(' :: ')' :: ".build();".toList) = some [opening .parenthesis,
      closing .parenthesis, leaf (punct '.' false), leaf (ident "build"), opening .parenthesis,
      closing .parenthesis, leaf (punct ';' false)] := by rfl
    simp only [Option.map_none, Option.getD_none, String.toList_empty, List.nil_append]
    rw [scan?_builder hrest]
    rfl
  | some t =>
    obtain ⟨hstring, hread⟩ := hname t rfl
    have hcall : scan? ('(' :: ')' :: ".name".toList) = some [opening .parenthesis,
      closing .parenthesis, leaf (punct '.' false), leaf (ident "name")] := by rfl
    have hrest : scan? ".build();".toList = some [leaf (punct '.' false), leaf (ident "build"),
      opening .parenthesis, closing .parenthesis, leaf (punct ';' false)] := by rfl
    have hargument := scan?_argument hstring (leaf?_of_readsBack hstring hread) hrest
    have hnamed := scan?_append stop_opening (by decide) (.inr (by rfl)) hcall hargument
    have hopen : ".name(".toList = ".name".toList ++ ['('] := by decide
    have hclose : ")".toList = [')'] := by decide
    simp only [Option.map_some, Option.getD_some, String.toList_append, List.append_assoc,
      List.cons_append, List.nil_append, hopen, hclose] at hnamed ⊢
    rw [scan?_builder hnamed]
    rfl

theorem lex?_mainText {name : Option String} {body : String} {ts : List Token}
    (hname : ∀ t ∈ name, isStringLiteral t = true ∧ ReadsBack [literal t])
    (hbody : lex? body = some ts) : lex? (mainText name body) = some [mainBlock name ts] := by
  obtain ⟨builder, hbuilder, hbuilder'⟩ := lex?_eq_some.mp (lex?_builder hname)
  obtain ⟨inner, hinner, hinner'⟩ := lex?_eq_some.mp hbody
  have hindent : "            let event_loop = ".toList =
      List.replicate 12 ' ' ++ "let event_loop = ".toList := by decide
  have hindent' : "                    ".toList = List.replicate 20 ' ' := by decide
  refine lex?_eq_some.mpr ⟨List.flatten [
    [opening .brace],
    builder,
    [leaf (ident "let"), leaf (ident "output"), leaf (punct '=' false), leaf (ident "event_loop")],
    [leaf (punct '.' false), leaf (ident "block_on"), opening .parenthesis, leaf (ident "async"),
      leaf (ident "move"), opening .brace],
    inner,
    [closing .brace, closing .parenthesis],
    [leaf (punct '.' false), leaf (ident "expect"), opening .parenthesis,
      leaf (literal "\"#[taskbridge::main] must not run inside another event loop\""),
      closing .parenthesis, leaf (punct ';' false)],
    [leaf (ident "output")],
    [closing .brace]], ?_, ?_⟩
  · unfold mainText
    refine scan?_lines (.cons (by rfl) (.cons ?_ (.cons (by rfl) (.cons (by rfl) (.cons ?_
      (.cons (by rfl) (.cons (by rfl) (.cons (by rfl) (.cons (by rfl) .nil)))))))))
    · rw [← hbuilder]
      simp only [String.toList_append, List.append_assoc, hindent, scan?_indent]
    · rw [← hinner, String.toList_append, hindent', scan?_indent]
  · simp only [List.flatten_cons, List.flatten_nil, List.append_nil, List.cons_append,
      List.nil_append, nest?, nestIn?, nestIn?_append _ _ hbuilder', nestIn?_append _ _ hinner']
    simp [mainBlock, loopBlock]

/-! ## The function -/

theorem splitBody?_eq_none {item : List Token} :
    splitBody? item = none ↔ ∀ b, group .brace b ∉ item := by
  induction item with
  | nil => simp [splitBody?]
  | cons t item ih =>
    unfold splitBody?
    split <;> simp only [List.mem_cons, not_or, forall_and, ← ih]
    · rename_i hsplit
      simp [hsplit]
    · simp
    · rename_i hsplit hother
      simpa [hsplit] using fun b h => hother b h.symm

theorem splitBody?_append {before body after : List Token} (h : ∀ b, group .brace b ∉ after) :
    splitBody? (before ++ group .brace body :: after) = some (before, body, after) := by
  induction before with
  | nil => simp [splitBody?, splitBody?_eq_none.mpr h]
  | cons t before ih => simp [splitBody?, ih]

/-- Without `async`, a function with a group is what is left in front of the group and behind it. -/
theorem removeAsync_append (before after : List Token) (d : Delimiter) :
    ∃ before' after', (∀ ts, removeAsync (before ++ group d ts :: after) =
      before' ++ group d ts :: after') ∧ after' ⊆ after := by
  have hgroup (ts : List Token) : (group d ts :: after).eraseP (isIdent "async") =
      group d ts :: after.eraseP (isIdent "async") := rfl
  by_cases hasync : before.any (isIdent "async") = true
  · refine ⟨removeAsync before, after, fun ts => ?_, List.Subset.refl _⟩
    rw [removeAsync, List.eraseP_append, if_pos hasync]
    rfl
  · refine ⟨before, removeAsync after, fun ts => ?_, List.eraseP_subset⟩
    rw [removeAsync, List.eraseP_append, if_neg hasync, hgroup]
    rfl

theorem wrap_eq_ok {wrapper : String → String} {before body after ts : List Token}
    (hafter : ∀ b, group .brace b ∉ after) (h : lex? (wrapper (print body)) = some ts) :
    wrap wrapper (before ++ group .brace body :: after) =
      .ok (removeAsync (before ++ group .brace ts :: after)) := by
  obtain ⟨before', after', hremove, hsub⟩ := removeAsync_append before after .brace
  have hafter' (b : List Token) : group .brace b ∉ after' := fun hb => hafter b (hsub hb)
  simp only [wrap, hremove, splitBody?_append hafter', h, List.append_assoc, List.cons_append,
    List.nil_append]

theorem wrap_eq_error (wrapper : String → String) {item : List Token} :
    wrap wrapper item = .error .body ↔ ∀ b, group .brace b ∉ item := by
  have hremove (b : List Token) : group .brace b ∈ removeAsync item ↔ group .brace b ∈ item :=
    List.mem_eraseP_of_neg (by simp [isIdent])
  simp only [← hremove, ← splitBody?_eq_none]
  unfold wrap
  cases splitBody? (removeAsync item) with
  | none => simp
  | some found =>
    simp only [reduceCtorEq, iff_false]
    split <;> simp

theorem wrap_cases (wrapper : String → String) (item : List Token) :
    wrap wrapper item = .error .body ∨ wrap wrapper item = .error .text ∨
      ∃ ts b, wrap wrapper item = .ok ts ∧ group .brace b ∈ ts := by
  unfold wrap
  split
  · exact .inl rfl
  · split
    · exact .inr (.inl rfl)
    · rename_i ts _
      have hgroup : group .brace ts ∈ [group .brace ts] := List.mem_singleton_self _
      exact .inr (.inr ⟨_, _, rfl, List.mem_append_left _ (List.mem_append_right _ hgroup)⟩)

/-! ## The attribute -/

theorem ne_compileError {ts : List Token} (b : List Token) (h : group .brace b ∈ ts)
    (message : String) : ts ≠ compileError message := by
  rintro rfl
  simp [compileError] at h

theorem quote_eq_of_compileError_eq {message message' : String}
    (h : compileError message = compileError message') :
    Text.Quoted.quote message = Text.Quoted.quote message' := by
  simpa [compileError] using h

/-- What `main` makes has every token of the function but the first `async` of its own, and between
its last braces the wrapper around the tokens of the body. It asks for a body exactly where there
are no braces. -/
theorem main_keeps_tokens {args item : List Token} {name : Option String}
    (hname : loopName args = .ok name) (hliteral : ∀ t ∈ name, ReadsBack [literal t]) :
    (∀ before body after, item = before ++ group .brace body :: after →
        (∀ b, group .brace b ∉ after) → ReadsBack body →
        expandMain args item =
          (before ++ group .brace [mainBlock name body] :: after).eraseP (isIdent "async") ∧
        ∀ message, expandMain args item ≠ compileError message) ∧
    (expandMain args item = compileError (Obstacle.body.message "main") ↔
      ∀ b, group .brace b ∉ item) := by
  have herror {o : Obstacle} (h : wrap (mainText name) item = .error o) :
      expandMain args item = compileError (o.message "main") := by
    rw [expandMain, hname, Except.bind, h]
  have hok {ts : List Token} (h : wrap (mainText name) item = .ok ts) :
      expandMain args item = ts := by
    rw [expandMain, hname, Except.bind, h]
  refine ⟨?_, ?_⟩
  · rintro before body after rfl hafter hbody
    have hnames := fun t ht => And.intro (isStringLiteral_of_loopName hname t ht) (hliteral t ht)
    have heq : expandMain args (before ++ group .brace body :: after) =
        removeAsync (before ++ group .brace [mainBlock name body] :: after) :=
      hok (wrap_eq_ok hafter (lex?_mainText hnames hbody))
    refine ⟨heq, ne_compileError [mainBlock name body] ?_⟩
    rw [heq, removeAsync, List.mem_eraseP_of_neg (by simp [isIdent])]
    simp
  · have htext : compileError (Obstacle.text.message "main") ≠
        compileError (Obstacle.body.message "main") :=
      fun h => absurd (quote_eq_of_compileError_eq h) (by decide)
    rw [← wrap_eq_error (mainText name)]
    rcases wrap_cases (mainText name) item with h | h | ⟨ts, b, h, hb⟩
    · simp [herror h, h]
    · simp [herror h, h, htext]
    · simp [hok h, h, ne_compileError b hb]

/-- The arguments `name = "worker"`. -/
def workerArgs : List Token :=
  [ident "name", punct '=' false, literal "\"worker\""]

/-- The function `#[cfg(async)] pub async fn main() -> Wide<{ 2 }>` up to its body. -/
def workerHead : List Token :=
  [punct '#' false, group .bracket [ident "cfg", group .parenthesis [ident "async"]],
    ident "pub", ident "async", ident "fn", ident "main", group .parenthesis [], punct '-' true,
    punct '>' false, ident "Wide", punct '<' false, group .brace [literal "2"], punct '>' false]

/-- Its body `async { run("//") }.await`. -/
def workerBody : List Token :=
  [ident "async", group .brace [ident "run", group .parenthesis [literal "\"//\""]],
    punct '.' false, ident "await"]

theorem main_keeps_tokens_of_worker :
    loopName workerArgs = .ok (some "\"worker\"") ∧ ReadsBack [literal "\"worker\""] ∧
      ReadsBack workerBody ∧
      expandMain workerArgs (workerHead ++ group .brace workerBody :: []) =
        [punct '#' false, group .bracket [ident "cfg", group .parenthesis [ident "async"]],
          ident "pub", ident "fn", ident "main", group .parenthesis [], punct '-' true,
          punct '>' false, ident "Wide", punct '<' false, group .brace [literal "2"],
          punct '>' false, group .brace [mainBlock (some "\"worker\"") workerBody]] := by
  have hname : loopName workerArgs = .ok (some "\"worker\"") := by rfl
  have hliteral : ReadsBack [literal "\"worker\""] := by rfl
  have hbody : ReadsBack workerBody := by rfl
  have hkept := (main_keeps_tokens hname (by simpa using hliteral)).1 workerHead workerBody [] rfl
    (by simp) hbody
  exact ⟨hname, hliteral, hbody, hkept.1⟩

end RunLoop.Attribute
