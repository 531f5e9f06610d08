import RunLoop.Proofs.EntryAttribute
import RunLoop.Proofs.Slashes

/-!
# A test is a function on a loop that is named test

The attribute `test` makes of a function what `main` with the name `"test"` makes of it, with the
mark of a test in front; only what the function says when it cannot run is another text. Under
`test` the body shares its line with what ends the wrapper, which a comment in the body would
swallow. Where the tokens of the body are read back as they were, there is no comment.

* `testBlock` is the new body that `test` makes.
* `lex?_testText`: the tokens of the text of its wrapper.
* `test_agrees_with_main`: both attributes fail alike, and make the same of a function otherwise.
-/

namespace RunLoop.Attribute

open Token Piece

/-! ## The wrapper -/

/-- The block that `test` makes of a body. -/
def testBlock (body : List Token) : Token :=
  loopBlock "\"#[taskbridge::test] must not run inside another event loop\"" (some "\"test\"") body

theorem stop_blank : Stop ' ' := by
  constructor <;> decide

/-- The line that the body shares with the end of the wrapper. -/
theorem scan?_bodyLine {body : List Token} {inner : List Piece} (hbody : ReadsBack body)
    (hinner : scan? (print body).toList = some inner) :
    scan? ("            .block_on(async move \x7b " ++ print body ++ " \x7d)").toList =
      some ([leaf (punct '.' false), leaf (ident "block_on"), opening .parenthesis,
        leaf (ident "async"), leaf (ident "move"), opening .brace] ++
        (inner ++ [closing .brace, closing .parenthesis])) := by
  have hopen : "            .block_on(async move \x7b ".toList =
      "            .block_on(async move \x7b".toList ++ [' '] := by decide
  have hclose : " \x7d)".toList = ' ' :: "\x7d)".toList := by decide
  -- A blank is no end of a comment, so the body must not have one.
  have hline := meetsLineComment_print hbody
  have hend : scan? (' ' :: "\x7d)".toList) = some [closing .brace, closing .parenthesis] := by rfl
  have hrest := scan?_append stop_blank (by decide) (.inr hline) hinner hend
  rw [String.toList_append, String.toList_append, hopen, hclose, List.append_assoc,
    List.append_assoc, List.singleton_append]
  exact scan?_append stop_blank (by decide) (.inr (by rfl)) (by rfl)
    ((scan?_separator rfl).trans hrest)

theorem lex?_testText {body : List Token} (hbody : ReadsBack body) :
    lex? (testText (print body)) = some [testBlock body] := by
  obtain ⟨inner, hinner, hinner'⟩ := lex?_eq_some.mp hbody
  refine lex?_eq_some.mpr ⟨List.flatten [
    [opening .brace],
    [leaf (ident "let"), leaf (ident "event_loop"), leaf (punct '=' false),
      leaf (punct ':' true), leaf (punct ':' false), leaf (ident "taskbridge"),
      leaf (punct ':' true), leaf (punct ':' false), leaf (ident "EventLoopBuilder"),
      leaf (punct ':' true), leaf (punct ':' false), leaf (ident "new"), opening .parenthesis,
      closing .parenthesis, leaf (punct '.' false), leaf (ident "name"), opening .parenthesis,
      leaf (literal "\"test\""), closing .parenthesis, leaf (punct '.' false),
      leaf (ident "build"), opening .parenthesis, closing .parenthesis, leaf (punct ';' false)],
    [leaf (ident "let"), leaf (ident "output"), leaf (punct '=' false), leaf (ident "event_loop")],
    [leaf (punct '.' false), leaf (ident "block_on"), opening .parenthesis, leaf (ident "async"),
      leaf (ident "move"), opening .brace] ++ (inner ++ [closing .brace, closing .parenthesis]),
    [leaf (punct '.' false), leaf (ident "expect"), opening .parenthesis,
      leaf (literal "\"#[taskbridge::test] must not run inside another event loop\""),
      closing .parenthesis, leaf (punct ';' false)],
    [leaf (ident "output")],
    [closing .brace]], ?_, ?_⟩
  · unfold testText
    exact scan?_lines (.cons (by rfl) (.cons (by rfl) (.cons (by rfl)
      (.cons (scan?_bodyLine hbody hinner) (.cons (by rfl) (.cons (by rfl)
        (.cons (by rfl) .nil)))))))
  · simp only [List.flatten_cons, List.flatten_nil, List.append_nil, List.cons_append,
      List.nil_append, List.append_assoc, nest?, nestIn?, nestIn?_append _ _ hinner']
    simp [testBlock, loopBlock, builderTokens]

/-! ## The attributes -/

/-- The arguments `name = "test"`. -/
def testArgs : List Token :=
  [ident "name", punct '=' false, literal "\"test\""]

theorem expandMain_testArgs (item : List Token) : expandMain testArgs item =
    match wrap (mainText (some "\"test\"")) item with
    | .error o => compileError (o.message "main")
    | .ok ts => ts := by
  have hname : loopName testArgs = .ok (some "\"test\"") := by rfl
  cases hwrap : wrap (mainText (some "\"test\"")) item <;>
    simp [expandMain, hname, Except.bind, hwrap]

/-- A function with a body is its last braces, with what is in front of them and behind. -/
theorem exists_last_brace {item : List Token} (h : ¬ ∀ b, group .brace b ∉ item) :
    ∃ before body after, item = before ++ group .brace body :: after ∧
      ∀ b, group .brace b ∉ after := by
  induction item with
  | nil => exact (h (by simp)).elim
  | cons t item ih =>
    by_cases hitem : ∀ b, group .brace b ∉ item
    · obtain ⟨body, rfl⟩ : ∃ body, group .brace body = t := by
        simpa [hitem] using h
      exact ⟨[], body, item, rfl, hitem⟩
    · obtain ⟨before, body, after, rfl, hafter⟩ := ih hitem
      exact ⟨t :: before, body, after, rfl, hafter⟩

section

variable (before : List Token) {body after : List Token}
  (hafter : ∀ b, group .brace b ∉ after) (hread : ReadsBack body)

include hafter hread

theorem expandMain_of_body : expandMain testArgs (before ++ group .brace body :: after) =
    removeAsync (before ++ group .brace [mainBlock (some "\"test\"") body] :: after) := by
  have hname : ∀ t ∈ some "\"test\"", isStringLiteral t = true ∧ ReadsBack [literal t] := by
    rintro t ⟨⟩
    exact ⟨by rfl, by rfl⟩
  rw [expandMain_testArgs, wrap_eq_ok hafter (lex?_mainText hname hread)]

theorem expandTest_of_body (args : List Token) :
    expandTest args (before ++ group .brace body :: after) =
      testMark ++ removeAsync (before ++ group .brace [testBlock body] :: after) := by
  rw [expandTest, wrap_eq_ok hafter (lex?_testText hread)]

theorem expandMain_ne_compileError (message : String) :
    expandMain testArgs (before ++ group .brace body :: after) ≠ compileError message := by
  refine ne_compileError [mainBlock (some "\"test\"") body] ?_ message
  rw [expandMain_of_body before hafter hread, removeAsync,
    List.mem_eraseP_of_neg (by simp [isIdent])]
  simp

theorem expandTest_ne_compileError (args : List Token) (message : String) :
    expandTest args (before ++ group .brace body :: after) ≠ compileError message := by
  rw [expandTest_of_body before hafter hread]
  simp [testMark, compileError]

end

/-- Where the body of a function is read back as it was, `test` fails exactly where `main` with the
name `"test"` fails, with one message and without the mark of a test. Otherwise it makes the mark
and the tokens that `main` makes, with its own text in the new body. -/
theorem test_agrees_with_main {item : List Token}
    (hbody : ∀ before body after, item = before ++ group .brace body :: after →
      (∀ b, group .brace b ∉ after) → ReadsBack body) (args : List Token) :
    ((∃ message, expandTest args item = compileError message) ↔
      ∃ message, expandMain testArgs item = compileError message) ∧
    ((∃ message, expandMain testArgs item = compileError message) →
      expandMain testArgs item = compileError (Obstacle.body.message "main") ∧
        expandTest args item = compileError (Obstacle.body.message "test")) ∧
    ((∀ message, expandMain testArgs item ≠ compileError message) →
      ∃ before body after,
        expandMain testArgs item =
          before ++ group .brace [mainBlock (some "\"test\"") body] :: after ∧
        expandTest args item = testMark ++ before ++ group .brace [testBlock body] :: after) := by
  by_cases hitem : ∀ b, group .brace b ∉ item
  · have hmain : expandMain testArgs item = compileError (Obstacle.body.message "main") := by
      rw [expandMain_testArgs, (wrap_eq_error _).mpr hitem]
    have htest : expandTest args item = compileError (Obstacle.body.message "test") := by
      rw [expandTest, (wrap_eq_error _).mpr hitem]
    exact ⟨iff_of_true ⟨_, htest⟩ ⟨_, hmain⟩, fun _ => ⟨hmain, htest⟩,
      fun h => absurd hmain (h _)⟩
  · obtain ⟨before, body, after, rfl, hafter⟩ := exists_last_brace hitem
    have hread := hbody before body after rfl hafter
    have hmain := expandMain_ne_compileError before hafter hread
    have htest := expandTest_ne_compileError before hafter hread args
    refine ⟨iff_of_false (fun ⟨message, h⟩ => htest message h)
      (fun ⟨message, h⟩ => hmain message h), fun ⟨message, h⟩ => (hmain message h).elim,
      fun _ => ?_⟩
    -- Both take the same `async` away, in front of the body or behind it.
    obtain ⟨before', after', hremove, -⟩ := removeAsync_append before after .brace
    refine ⟨before', body, after', ?_, ?_⟩
    · rw [expandMain_of_body before hafter hread, hremove]
    · rw [expandTest_of_body before hafter hread, hremove, List.append_assoc]

/-- The function of which `async` is not the first word, with a body that has a group of its own, as
a test. -/
theorem test_agrees_with_main_of_worker :
    (∀ before body after, workerHead ++ [group .brace workerBody] =
        before ++ group .brace body :: after → (∀ b, group .brace b ∉ after) → ReadsBack body) ∧
      (∀ message, expandMain testArgs (workerHead ++ [group .brace workerBody]) ≠
        compileError message) ∧
      ∃ before body after,
        expandMain testArgs (workerHead ++ [group .brace workerBody]) =
          before ++ group .brace [mainBlock (some "\"test\"") body] :: after ∧
        expandTest workerArgs (workerHead ++ [group .brace workerBody]) =
          testMark ++ before ++ group .brace [testBlock body] :: after := by
  have hbody : ∀ before body after, workerHead ++ [group .brace workerBody] =
      before ++ group .brace body :: after → (∀ b, group .brace b ∉ after) → ReadsBack body := by
    intro before body after heq hafter
    have hsplit : splitBody? (before ++ group .brace body :: after) = some (before, body, after) :=
      splitBody?_append hafter
    rw [← heq, splitBody?_append (by simp)] at hsplit
    cases hsplit
    rfl
  obtain ⟨-, -, hagree⟩ := test_agrees_with_main hbody workerArgs
  have hmain : ∀ message, expandMain testArgs (workerHead ++ [group .brace workerBody]) ≠
      compileError message :=
    expandMain_ne_compileError workerHead (by simp) (by rfl)
  exact ⟨hbody, hmain, hagree hmain⟩

end RunLoop.Attribute
