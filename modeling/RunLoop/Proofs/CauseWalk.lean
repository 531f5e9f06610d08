import RunLoop.Error

/-!
# Faults are transparent

A fault stands in for the error that is bound in it. It reads like that error, shows the same and
has the same cause, so a walk from cause to cause meets a fault in the place of its error and goes
on with what it would have met behind that. Faults around faults change nothing.

* `Error.source?`, `Fault.source?`, `Bound.source?` are the causes that are met next.
* `Causes` is a walk from cause to cause up to its end.
* `Bound.wrapped` is an error in layers of faults.
* `Fault.transparent`: what can be seen of a fault is what can be seen of its error.
-/

namespace RunLoop

/-! ## Causes -/

mutual

/-- The cause of an error that is met next: a fault is the cause of the error that carries it. -/
def Error.source? : Error → Option Bound
  | .faulted f => some (.fault f)
  | _ => none

/-- A fault has the cause of its bound error. -/
def Fault.source? : Fault → Option Bound
  | .mk _ b => b.source?

/-- The cause of a bound error that is met next. -/
def Bound.source? : Bound → Option Bound
  | .caused _ _ c => some c
  | .error e => e.source?
  | .fault f => f.source?
  | _ => none

end

/-- The errors that are met in a walk from an error to its causes, up to the last. -/
inductive Causes : Bound → List Bound → Prop where
  | stop {b : Bound} (h : b.source? = none) : Causes b []
  | next {b c : Bound} {cs : List Bound} (h : b.source? = some c) (walk : Causes c cs) :
      Causes b (c :: cs)

section

variable {b b' : Bound} {cs cs' : List Bound}

theorem Causes.unique (h : Causes b cs) (h' : Causes b cs') : cs = cs' := by
  induction h generalizing cs' with
  | stop h =>
    cases h' with
    | stop => rfl
    | next h' => simp [h] at h'
  | next h _ ih =>
    cases h' with
    | stop h' => simp [h] at h'
    | next h' walk' =>
      obtain rfl := Option.some.inj (h.symm.trans h')
      rw [ih walk']

/-- What comes of a walk depends on the first cause only. -/
theorem Causes.of_source?_eq (h : Causes b cs) (hsource : b'.source? = b.source?) :
    Causes b' cs := by
  cases h with
  | stop h => exact .stop (hsource.trans h)
  | next h walk => exact .next (hsource.trans h) walk

mutual

theorem Error.exists_causes : ∀ e : Error, ∃ cs, Causes (.error e) cs
  | .faulted f => by
    obtain ⟨cs, walk⟩ := Fault.exists_causes f
    exact ⟨_, .next rfl walk⟩
  | .noActiveLoop => ⟨[], .stop rfl⟩
  | .nestedLoop => ⟨[], .stop rfl⟩
  | .alreadyCompleted => ⟨[], .stop rfl⟩
  | .loopClosed => ⟨[], .stop rfl⟩
  | .cancelled => ⟨[], .stop rfl⟩
  | .panicked _ => ⟨[], .stop rfl⟩

theorem Fault.exists_causes : ∀ f : Fault, ∃ cs, Causes (.fault f) cs
  | .mk _ b => by
    obtain ⟨cs, walk⟩ := Bound.exists_causes b
    exact ⟨cs, walk.of_source?_eq rfl⟩

/-- A walk from cause to cause ends. -/
theorem Bound.exists_causes : ∀ b : Bound, ∃ cs, Causes b cs
  | .caused _ _ c => by
    obtain ⟨cs, walk⟩ := Bound.exists_causes c
    exact ⟨_, .next rfl walk⟩
  | .error e => Error.exists_causes e
  | .fault f => Fault.exists_causes f
  | .text _ => ⟨[], .stop rfl⟩
  | .stream _ => ⟨[], .stop rfl⟩
  | .foreign _ _ => ⟨[], .stop rfl⟩

end

mutual

theorem Error.sources_eq : ∀ e : Error,
    e.sources = (e.source?.map fun c => c.message :: c.sources).getD []
  | .faulted _ => rfl
  | .noActiveLoop => rfl
  | .nestedLoop => rfl
  | .alreadyCompleted => rfl
  | .loopClosed => rfl
  | .cancelled => rfl
  | .panicked _ => rfl

theorem Fault.sources_eq : ∀ f : Fault,
    f.sources = (f.source?.map fun c => c.message :: c.sources).getD []
  | .mk _ b => Bound.sources_eq b

/-- The texts behind an error are that of its first cause and those behind that. -/
theorem Bound.sources_eq : ∀ b : Bound,
    b.sources = (b.source?.map fun c => c.message :: c.sources).getD []
  | .caused _ _ _ => rfl
  | .error e => Error.sources_eq e
  | .fault f => Fault.sources_eq f
  | .text _ => rfl
  | .stream _ => rfl
  | .foreign _ _ => rfl

end

/-- The texts of the errors that a walk meets. -/
theorem Causes.map_message (h : Causes b cs) : cs.map Bound.message = b.sources := by
  induction h with
  | stop h => rw [Bound.sources_eq, h]; rfl
  | next h _ ih => rw [Bound.sources_eq, h, List.map_cons, ih]; rfl

end

/-! ## Layers -/

/-- An error in layers of faults, the outermost first. -/
def Bound.wrapped : List Nat → Bound → Bound
  | [], b => b
  | i :: layers, b => .fault (.mk i (b.wrapped layers))

/-- What can be seen of fault `f` is what can be seen of error `b`. The walk from the error that
carries the fault meets the fault, and then what the walk from `b` meets up to its end. -/
structure Transparent (f : Fault) (b : Bound) : Prop where
  message : f.message = b.message
  debug : f.debug = b.debug
  faulted : (Error.faulted f).message = "the task faulted: " ++ b.message
  causes : ∃ cs, (∀ cs', Causes b cs' ↔ cs' = cs) ∧
    (∀ cs', Causes (.error (.faulted f)) cs' ↔ cs' = .fault f :: cs) ∧
    (Bound.fault f :: cs).map Bound.message = b.message :: cs.map Bound.message
  /-- The texts that are listed are those of the walk. -/
  sources : (Error.faulted f).sources = b.message :: b.sources ∧
    ∀ cs, Causes b cs → cs.map Bound.message = b.sources

theorem Bound.wrapped_seen (layers : List Nat) (b : Bound) :
    (b.wrapped layers).message = b.message ∧ (b.wrapped layers).debug = b.debug ∧
      (b.wrapped layers).source? = b.source? ∧ (b.wrapped layers).sources = b.sources := by
  induction layers with
  | nil => exact ⟨rfl, rfl, rfl, rfl⟩
  | cons i layers ih => exact ih

theorem Fault.transparent (i : Nat) (layers : List Nat) (b : Bound) :
    Transparent (.mk i (b.wrapped layers)) b := by
  obtain ⟨hmessage, hdebug, hsource, hsources⟩ := b.wrapped_seen layers
  obtain ⟨cs, walk⟩ := b.exists_causes
  have hfaulted : Causes (.error (.faulted (.mk i (b.wrapped layers))))
      (.fault (.mk i (b.wrapped layers)) :: cs) :=
    .next rfl (walk.of_source?_eq hsource)
  exact
    { message := hmessage
      debug := hdebug
      faulted := congrArg ("the task faulted: " ++ ·) hmessage
      causes := ⟨cs, fun _ => ⟨fun h => h.unique walk, fun h => h ▸ walk⟩,
        fun _ => ⟨fun h => h.unique hfaulted, fun h => h ▸ hfaulted⟩,
        congrArg (· :: cs.map Bound.message) hmessage⟩
      sources := ⟨List.cons_eq_cons.mpr ⟨hmessage, hsources⟩, fun _ h => h.map_message⟩ }

end RunLoop
