import RunLoop.Script.Code

/-!
# The names that a thread sees

The code of a script knows objects by name. It sees the names that all threads share and those that
its own thread gave, and nothing of the names on other threads. A registry keeps these in an order
that depends on which threads took turns; here it is shown that no script ever finds out.

* `Registry.among` puts the names of one thread among those of other threads.
* `stepHere_among`: a step does the same among any other threads, and leaves their names alone.
* `Registry.Same` relates registries in which every thread sees the same names.
* `step_same`: in such registries a script does the same.
-/

namespace RunLoop

open Script

/-! ## One thread among others -/

namespace Script

namespace Registry

/-- The names of `r` as those that thread `t` sees, with `others` given by other threads. -/
def among (r : Registry) (t : ThreadId) (others : List (ThreadId × LocalNames)) : Registry :=
  { r with thread := t, elsewhere := others }

variable (r : Registry) (t : ThreadId) (others : List (ThreadId × LocalNames))

theorem sources_among : (r.among t others).sources = r.sources :=
  rfl

theorem here_among : (r.among t others).here = r.here :=
  rfl

theorem holds_among (l : LoopId) : (r.among t others).holds l = r.holds l :=
  rfl

end Registry

end Script

/-- The step with the names that it leaves among those of other threads. -/
def Step.among (s : Step guest) (t : ThreadId) (others : List (ThreadId × LocalNames)) :
    Step guest :=
  { s with shared := s.shared.among t others }

theorem Step.among_ite {p : Prop} [Decidable p] (s s' : Step guest) (t : ThreadId)
    (others : List (ThreadId × LocalNames)) :
    (if p then s else s').among t others = if p then s.among t others else s'.among t others :=
  apply_ite (Step.among · t others) p s s'

namespace Script

section

variable {w : World guest} {b : Body} {r : Registry} {t : ThreadId}
  {others : List (ThreadId × LocalNames)}

theorem cellOf_among (id : String) : cellOf w (r.among t others) id = cellOf w r id :=
  rfl

mutual

theorem Awaitable.build_among (who : String) (first : Nat) (a : Awaitable) :
    a.build w (r.among t others) who first = a.build w r who first := by
  cases a with
  | nested a => rw [Awaitable.build, Awaitable.build, Awaitable.build_among who first a]
  | all parts => rw [Awaitable.build, Awaitable.build, Awaitable.buildAll_among who first [] parts]
  | any parts => rw [Awaitable.build, Awaitable.build, Awaitable.buildAll_among who first [] parts]
  | ready result => cases result <;> rfl
  | _ => rfl

theorem Awaitable.buildAll_among (who : String) (first : Nat) (built : List (Future Routine))
    (parts : List Awaitable) :
    Awaitable.buildAll w (r.among t others) who first built parts =
      Awaitable.buildAll w r who first built parts := by
  cases parts with
  | nil => rfl
  | cons a rest =>
    rw [Awaitable.buildAll, Awaitable.buildAll, Awaitable.build_among who first a]
    cases a.build w r who first with
    | error u => rfl
    | ok f => exact Awaitable.buildAll_among who _ _ rest

end

namespace Body

theorem askBuilt_among (h : Heading) (built : Except Unbuilt (Future Routine))
    (q : Future Routine → Request guest) (p : Point) :
    b.askBuilt (r.among t others) h built q p = (b.askBuilt r h built q p).among t others := by
  cases built <;> rfl

theorem logKnown_among {α : Type} (h : Heading) (a : Except String α) (v : α → Value) :
    b.logKnown (r.among t others) h a v = (b.logKnown r h a v).among t others := by
  cases a <;> rfl

theorem askKnown_among {α : Type} (h : Heading) (a : Except String α)
    (q : α → Request guest) (p : Point) :
    b.askKnown (r.among t others) h a q p = (b.askKnown r h a q p).among t others := by
  cases a <;> rfl

theorem finish_among (notes : List Note) (result : Result) :
    b.finish (r.among t others) notes result = (b.finish r notes result).among t others := by
  unfold finish
  cases b.owner <;> rfl

theorem suspend_among (pause : Pause) :
    b.suspend (r.among t others) pause = (b.suspend r pause).among t others := by
  unfold suspend
  cases b.owner <;> rfl

theorem yield_among (h : Heading) (k : WakerId) (n : Nat) :
    b.yield (r.among t others) h k n = (b.yield r h k n).among t others := by
  cases n <;> rfl

theorem refuseComparison_among (first : Nat) (y : Awaitable) :
    b.refuseComparison w (r.among t others) first y =
      (b.refuseComparison w r first y).among t others := by
  rw [refuseComparison, Awaitable.build_among]
  rfl

theorem startComparison_among (first : Nat) (k : WakerId) (x y : Awaitable) :
    b.startComparison w (r.among t others) first k x y =
      (b.startComparison w r first k x y).among t others := by
  simp only [startComparison, Awaitable.build_among]
  cases x.build w r b.who first with
  | error u => rfl
  | ok f => cases y.build w r b.who (first + x.faults) <;> rfl

theorem carryOutWaiting_among (h : Heading) (first : Nat) (k : WakerId) (action : Action) :
    b.carryOutWaiting w (r.among t others) h first k action =
      (b.carryOutWaiting w r h first k action).among t others := by
  cases action with
  | yield n => exact yield_among ⟨h.op, .null⟩ k n
  | await | poll =>
    simp only [carryOutWaiting, Awaitable.build_among]
    exact askBuilt_among _ _ _ _
  | sameFault x y => exact startComparison_among first k x y
  | _ => rfl

theorem replyPolled_among (h : Heading) (use : Use) (p : Poll Routine) :
    b.replyPolled (r.among t others) h use p =
      (b.replyPolled r h use p).among t others := by
  cases p with
  | pending f => exact suspend_among _
  | ready => rfl

theorem useResult_among (fresh : Nat) (h : Heading) (use : Use) (result : Result) :
    b.useResult fresh (r.among t others) h use result =
      (b.useResult fresh r h use result).among t others := by
  cases use with
  | finish => exact finish_among _ _
  | keep | inspect => cases result <;> rfl
  | orEnd =>
    cases result with
    | ok => rfl
    | error => exact finish_among _ _

theorem logAfterClosing_among (h : Heading) (l : LoopId) (v : Value) :
    b.logAfterClosing (r.among t others) h l v =
      (b.logAfterClosing r h l v).among t others := by
  unfold logAfterClosing
  rw [Step.among_ite]
  rfl

theorem nameLoop_among (h : Heading) (id : String) (l : LoopId) :
    b.nameLoop w (r.among t others) h id l = (b.nameLoop w r h id l).among t others := by
  simp only [nameLoop, Registry.here_among]
  cases r.here.loops.find? id with
  | none => rfl
  | some old => exact logAfterClosing_among (r := r.nameLoop id l) h old _

theorem dropLoop_among (h : Heading) (id : String) :
    b.dropLoop (r.among t others) h id = (b.dropLoop r h id).among t others := by
  simp only [dropLoop, Registry.here_among, Registry.holds_among]
  cases r.here.loops.find? id with
  | none => rfl
  | some l =>
    dsimp only
    rw [Step.among_ite]
    rfl

theorem blockOn_among (h : Heading) (first : Nat) (loop : String) (a : Awaitable) :
    b.blockOn w (r.among t others) h first loop a =
      (b.blockOn w r h first loop a).among t others := by
  simp only [blockOn, Registry.here_among, Awaitable.build_among]
  cases r.here.loops.find? loop with
  | none => rfl
  | some l => cases a.build w r b.who first <;> rfl

theorem startEntry_among (h : Heading) (which : String) (p : Program) :
    b.startEntry (r.among t others) h which p = (b.startEntry r h which p).among t others := by
  unfold startEntry
  cases entryName which <;> rfl

theorem current_among (h : Heading) (id : String) :
    b.current w (r.among t others) h id = (b.current w r h id).among t others := by
  unfold current
  cases w.thread.current <;> rfl

theorem carryOut_among (h : Heading) (first : Nat) (action : Action) :
    b.carryOut w (r.among t others) h first action =
      (b.carryOut w r h first action).among t others := by
  cases action with
  | finish | fail => exact finish_among _ _
  | loop id name park handler announce =>
    simp only [carryOut]
    cases config id name park handler <;> rfl
  | dropLoop id => exact dropLoop_among h id
  | loopInfo | handleInfo | sameLoop | sourceInfo | taskInfo | joinInfo | willWake =>
    exact logKnown_among h _ _
  | call | startOn => exact askKnown_among h _ _ _
  | joinThread id => exact askKnown_among (r := r.eraseThread id) h _ _ _
  | wake id consume =>
    cases consume with
    | false => exact askKnown_among h _ _ _
    | true => exact askKnown_among (r := { r with wakers := r.wakers.erase id }) h _ _ _
  | source id name =>
    cases name with
    | none => rfl
    | some => exact askKnown_among h _ _ _
  | settle id o => cases o <;> exact askKnown_among h _ _ _
  | blockOn loop a => exact blockOn_among h first loop a
  | entry which p => exact startEntry_among h which p
  | current id => exact current_among h id
  | handle id loop =>
    simp only [carryOut, Registry.here_among]
    cases r.here.loops.find? loop <;> rfl
  | cloneSource id of =>
    simp only [carryOut, Registry.sources_among]
    cases r.sources.find? of <;> rfl
  | task id source =>
    simp only [carryOut, cellOf_among]
    cases cellOf w r source <;> rfl
  | getResult a discard =>
    simp only [carryOut, Awaitable.build_among]
    cases a.build w r b.who first <;> rfl
  | log | panic | describe | listen | spawn | start | forget | thread | background | guarded =>
    rfl
  | yield | await | poll | sameFault | saveWaker | malformed =>
    simp only [carryOut]
    cases b.waker? with
    | none => rfl
    | some k => exact carryOutWaiting_among h first k _

theorem next_among : b.next w (r.among t others) = (b.next w r).among t others := by
  unfold next
  split
  · exact finish_among _ _
  · rfl
  · split
    · exact carryOut_among _ _ _
    · rfl

theorem reply_among (p : Point) (a : Answer guest) :
    b.reply w (r.among t others) p a = (b.reply w r p a).among t others := by
  cases p with
  | numbered h action =>
    cases a with
    | identities first => exact carryOut_among h first action
    | _ => exact next_among
  | built h id =>
    cases a with
    | loop l => exact nameLoop_among h id l
    | _ => exact next_among
  | blocked h l =>
    cases a with
    | blocked result =>
      cases result <;> exact logAfterClosing_among (r := r.release l) h l _
    | _ => exact next_among
  | unblocked h l => cases a <;> exact logAfterClosing_among (r := r.release l) h l _
  | entered h l =>
    cases a with
    | blocked result => cases result <;> rfl
    | _ => exact next_among
  | got h discard =>
    cases a with
    | result result => cases discard <;> cases result <;> rfl
    | _ => cases discard <;> exact next_among
  | sourced h id =>
    cases a with
    | source result => cases result <;> rfl
    | _ => exact next_among
  | spawned h id =>
    cases a with
    | join result => cases result <;> rfl
    | _ => exact next_among
  | polled h use =>
    cases a with
    | polled p => exact replyPolled_among h use p
    | _ => exact next_among
  | settled h use result => cases a <;> exact useResult_among w.identities h use result
  | yielded h n => cases a <;> exact suspend_among _
  | comparand first y => cases a <;> exact refuseComparison_among first y
  | compareNext result g =>
    simp only [reply]
    cases b.waker? with
    | none => exact next_among
    | some k => rfl
  | sampled h =>
    cases a with
    | polled p => cases p <;> rfl
    | _ => exact next_among
  | comparing | compared =>
    cases a with
    | polled p =>
      cases p with
      | pending f => exact suspend_among _
      | ready => rfl
    | _ => exact next_among
  | note => cases a <;> rfl
  | next => cases a <;> exact next_among
  | unit | entering | stopped | joined | launched =>
    cases a <;> first | rfl | exact next_among

theorem resume_among (k : WakerId) (pause : Pause) :
    b.resume w (r.among t others) k pause = (b.resume w r k pause).among t others := by
  cases pause with
  | start => exact next_among
  | yielding h n => exact yield_among h k n
  | _ => rfl

end Body

theorem pollAll_among (k : WakerId) (polled parts : List Part) :
    pollAll (r.among t others) k polled parts = (pollAll r k polled parts).among t others := by
  induction parts generalizing polled with
  | nil =>
    unfold pollAll
    dsimp only
    rw [Step.among_ite]
    rfl
  | cons part rest ih =>
    cases part with
    | done result => exact ih _
    | running f => rfl

theorem pollAny_among (k : WakerId) (pending futures : List (Future Routine)) :
    pollAny (r.among t others) k pending futures =
      (pollAny r k pending futures).among t others := by
  cases futures <;> rfl

theorem pollRoutine_among (k : WakerId) (routine : Routine) :
    pollRoutine w (r.among t others) k routine = (pollRoutine w r k routine).among t others := by
  cases routine with
  | program who rest pause guard => exact Body.resume_among k pause
  | all parts => exact pollAll_among k [] parts
  | any futures => exact pollAny_among k [] futures
  | polls who name count done =>
    simp only [pollRoutine]
    rw [Step.among_ite]
    rfl
  | yields n again =>
    match n, again with
    | 0, _ | 1, true | 1, false | _ + 2, true | _ + 2, false => rfl
  | _ => rfl

theorem windUp_among (guard : Option Guard) (ending : Ending) (futures : List (Future Routine)) :
    windUp (r.among t others) guard ending futures =
      (windUp r guard ending futures).among t others := by
  cases futures with
  | nil =>
    match guard with
    | none | some (.mk _ _) => rfl
  | cons => rfl

theorem setOff_among (panicking : Bool) (bomb : String) (inner : Future Routine) :
    setOff panicking (r.among t others) bomb inner =
      (setOff panicking r bomb inner).among t others := by
  unfold setOff
  rw [Step.among_ite]
  rfl

theorem dropLoops_among (ending : Ending) (loops : List LoopId) :
    dropLoops (r.among t others) ending loops = (dropLoops r ending loops).among t others := by
  cases loops with
  | nil =>
    have hnamed : (r.among t others).namedLoops = r.namedLoops := rfl
    simp only [dropLoops, hnamed]
    cases r.namedLoops <;> rfl
  | cons => rfl

theorem nextStep_among (steps : List (String × Statement)) :
    nextStep (r.among t others) steps = (nextStep r steps).among t others := by
  cases steps <;> rfl

theorem stepHere_body (scene : Scene guest) (p : Point) (a : Answer guest) :
    stepHere scene r (.body b p) a = b.reply scene.world r p a := by
  cases p with
  | next => cases a <;> rfl
  | _ => rfl

/-- **A step does the same among any other threads.** -/
theorem stepHere_among (scene : Scene guest) (run : Run) (a : Answer guest) :
    stepHere scene (r.among t others) run a = (stepHere scene r run a).among t others := by
  cases run with
  | body b p =>
    rw [stepHere_body, stepHere_body]
    exact Body.reply_among p a
  | poll routine k => exact pollRoutine_among k routine
  | reading c | joining c =>
    cases a with
    | cell o | joined o => cases o <;> rfl
    | _ => rfl
  | pollingAll k polled rest =>
    cases a with
    | polled p =>
      cases p with
      | pending f => exact pollAll_among k _ rest
      | ready => rfl
    | _ => exact pollAll_among k polled rest
  | droppingPart k polled result rest => exact pollAll_among k _ rest
  | pollingAny k pending rest =>
    cases a with
    | polled p =>
      cases p with
      | pending f => exact pollAny_among k _ rest
      | ready => rfl
    | _ => exact pollAny_among k pending rest
  | pollingArmed bomb =>
    cases a with
    | polled p => cases p <;> rfl
    | _ => rfl
  | setOff bomb inner => exact setOff_among scene.panicking bomb inner
  | windUp futures guard ending => exact windUp_among guard ending futures
  | closing l next =>
    simp only [stepHere]
    rw [Step.among_ite]
    rfl
  | threadBody => cases a <;> exact dropLoops_among (r := r.leave) _ r.namedLoops
  | threadLoops loops ending => exact dropLoops_among ending loops
  | script steps => exact nextStep_among steps
  | scriptStep op rest =>
    cases a with
    | stopped panic =>
      cases panic with
      | none => exact nextStep_among rest
      | some panic => rfl
    | _ => exact nextStep_among rest
  | handling | putOff | thread => rfl

theorem others_stepHere (r : Registry) (scene : Scene guest) (run : Run) (a : Answer guest) :
    (stepHere scene r run a).shared.thread = r.thread ∧
      (stepHere scene r run a).shared.elsewhere = r.elsewhere := by
  have hself : r.among r.thread r.elsewhere = r := rfl
  have hstep : stepHere scene (r.among r.thread r.elsewhere) run a = _ :=
    stepHere_among scene run a
  rw [hself] at hstep
  rw [hstep]
  exact ⟨rfl, rfl⟩

end

/-! ## The same names -/

theorem lookup_filter_ne {α β : Type} [DecidableEq α] (names : List (α × β)) {a b : α}
    (h : b ≠ a) : (names.filter (fun p => p.1 ≠ a)).lookup b = names.lookup b := by
  induction names with
  | nil => rfl
  | cons p names ih =>
    obtain ⟨c, x⟩ := p
    by_cases hc : c = a
    · have hb : (b == c) = false := by simpa [hc] using h
      rw [List.filter_cons_of_neg (by simpa using hc), ih, List.lookup_cons, hb]
    · rw [List.filter_cons_of_pos (by simpa using hc), List.lookup_cons, List.lookup_cons, ih]

namespace Registry

/-- The names that thread `t` gave. -/
def namesOf (r : Registry) (t : ThreadId) : LocalNames :=
  if t = r.thread then r.here else (r.elsewhere.lookup t).getD .empty

/-- Two registries in which every thread sees the same names. -/
structure Same (r r' : Registry) : Prop where
  sources : r.sources = r'.sources
  tasks : r.tasks = r'.tasks
  handles : r.handles = r'.handles
  wakers : r.wakers = r'.wakers
  names (t : ThreadId) : r.namesOf t = r'.namesOf t

variable {r r' : Registry}

theorem same_equivalence : Equivalence Same where
  refl _ := ⟨rfl, rfl, rfl, rfl, fun _ => rfl⟩
  symm h := ⟨h.sources.symm, h.tasks.symm, h.handles.symm, h.wakers.symm, fun t => (h.names t).symm⟩
  trans h h' := ⟨h.sources.trans h'.sources, h.tasks.trans h'.tasks, h.handles.trans h'.handles,
    h.wakers.trans h'.wakers, fun t => (h.names t).trans (h'.names t)⟩

theorem thread_turnTo (r : Registry) (t : ThreadId) : (r.turnTo t).thread = t := by
  unfold turnTo
  split
  · exact Eq.symm ‹_›
  · rfl

theorem same_turnTo (r : Registry) (t : ThreadId) : Same r (r.turnTo t) := by
  by_cases ht : t = r.thread
  · rw [turnTo, if_pos ht]
    exact same_equivalence.refl r
  · rw [turnTo, if_neg ht]
    refine ⟨rfl, rfl, rfl, rfl, fun u => ?_⟩
    by_cases hu : u = t
    · subst hu
      rw [namesOf, namesOf, if_neg ht, if_pos rfl]
    · rw [namesOf, namesOf, if_neg hu, List.lookup_cons]
      by_cases hr : u = r.thread
      · rw [if_pos hr, beq_iff_eq.mpr hr]
        rfl
      · rw [if_neg hr, lookup_filter_ne _ hu, beq_eq_false_iff_ne.mpr hr]

/-- The names of a thread are the same among those of any other threads. -/
theorem Same.eq_among (h : Same r r') (ht : r.thread = r'.thread) :
    r' = r.among r.thread r'.elsewhere := by
  have hhere : r.here = r'.here := by
    have hnames := h.names r.thread
    rwa [namesOf, namesOf, if_pos rfl, if_pos ht] at hnames
  obtain ⟨hsources, htasks, hhandles, hwakers, -⟩ := h
  unfold among
  rw [hsources, htasks, hhandles, hwakers, hhere, ht]

theorem Same.others (h : Same r r') (ht : r.thread = r'.thread) {s : Registry}
    (hthread : s.thread = r.thread) (hothers : s.elsewhere = r.elsewhere) :
    Same s (s.among r.thread r'.elsewhere) := by
  refine ⟨rfl, rfl, rfl, rfl, fun u => ?_⟩
  have hnames := h.names u
  unfold namesOf at hnames ⊢
  rw [hthread, hothers]
  by_cases hu : u = r.thread
  · rw [if_pos hu, among, if_pos hu]
  · rw [if_neg hu, if_neg (ht ▸ hu)] at hnames
    rw [if_neg hu, among, if_neg hu]
    exact hnames

theorem Same.turnTo (h : Same r r') (t : ThreadId) : Same (r.turnTo t) (r'.turnTo t) := by
  have hback : Same (r.turnTo t) r := same_equivalence.symm (same_turnTo r t)
  exact same_equivalence.trans hback (same_equivalence.trans h (same_turnTo r' t))

end Registry

/-! ## Steps of scripts -/

/-- **A script does the same wherever every thread sees the same names.** -/
theorem step_same {r r' : Registry} (h : r.Same r') (scene : Scene guest) (run : Run)
    (a : Answer guest) : (step scene r run a).act = (step scene r' run a).act ∧
      (step scene r run a).notes = (step scene r' run a).notes ∧
      (step scene r run a).shared.Same (step scene r' run a).shared := by
  have hturn := h.turnTo scene.world.thread.id
  have ht : (r.turnTo scene.world.thread.id).thread = (r'.turnTo scene.world.thread.id).thread := by
    rw [Registry.thread_turnTo, Registry.thread_turnTo]
  obtain ⟨hthread, hothers⟩ := others_stepHere (r.turnTo scene.world.thread.id) scene run a
  unfold step
  rw [hturn.eq_among ht, stepHere_among]
  exact ⟨rfl, rfl, hturn.others ht hthread hothers⟩

end Script

end RunLoop
