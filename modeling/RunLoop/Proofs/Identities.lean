import RunLoop.Proofs.CauseWalk
import RunLoop.Proofs.Play
import RunLoop.Proofs.Waiters

/-!
# Faults and their identities

Whoever makes faults is given identities for them. They are counted up and never given again, so
that faults made at different times are told apart, also where one is bound in the other, and
whatever the threads do in between. Copies share an identity: all that read a cell get one fault.

* `Error.carried` lists the faults in an error; those that are numbered at once differ.
* `Machine.identities_step`: only a request for identities changes how many were given out.
* `Machine.Makes`, `Machine.Reads` say that a thread makes a fault, or reads one out of a cell.
* `Machine.faults_stay_themselves` is what holds of faults in every run.
-/

namespace RunLoop

/-! ## Faults in an error -/

mutual

/-- The faults in an error, each in front of those that are bound in it. -/
def Error.carried : Error → List Fault
  | .faulted f => f.carried
  | _ => []

/-- A fault and the faults that are bound in it. -/
def Fault.carried : Fault → List Fault
  | .mk i b => .mk i b :: b.carried

/-- The faults in a bound error. -/
def Bound.carried : Bound → List Fault
  | .caused _ _ c => c.carried
  | .error e => e.carried
  | .fault f => f.carried
  | _ => []

end

mutual

theorem Error.identities_renew : ∀ (e : Error) (first : Nat),
    (e.renew first).carried.map Fault.identity = List.range' first e.faults
  | .faulted f, first => Fault.identities_renew f first
  | .noActiveLoop, _ => rfl
  | .nestedLoop, _ => rfl
  | .alreadyCompleted, _ => rfl
  | .loopClosed, _ => rfl
  | .cancelled, _ => rfl
  | .panicked _, _ => rfl

theorem Fault.identities_renew : ∀ (f : Fault) (first : Nat),
    (f.renew first).carried.map Fault.identity = List.range' first f.faults
  | .mk _ b, first => congrArg (first :: ·) (Bound.identities_renew b (first + 1))

/-- The faults in an error are numbered one after the other. -/
theorem Bound.identities_renew : ∀ (b : Bound) (first : Nat),
    (b.renew first).carried.map Fault.identity = List.range' first b.faults
  | .caused _ _ c, first => Bound.identities_renew c first
  | .error e, first => Error.identities_renew e first
  | .fault f, first => Fault.identities_renew f first
  | .text _, _ => rfl
  | .stream _, _ => rfl
  | .foreign _ _, _ => rfl

end

theorem Fault.same_eq_false {f g : Fault} (h : f.identity ≠ g.identity) :
    f.same g = false ∧ g.same f = false := by
  simp [same, h, h.symm]

/-- Faults that are numbered at once are not copies of each other. -/
theorem Error.pairwise_renew (e : Error) (first : Nat) :
    (e.renew first).carried.Pairwise (fun f g => f.same g = false ∧ g.same f = false) := by
  have hnodup : ((e.renew first).carried.map Fault.identity).Nodup :=
    e.identities_renew first ▸ List.nodup_range'
  exact (List.pairwise_map.mp hnodup).imp Fault.same_eq_false

theorem Error.identity_of_carried {e : Error} {first : Nat} {f : Fault}
    (h : f ∈ (e.renew first).carried) : first ≤ f.identity ∧ f.identity < first + e.faults := by
  have hmem := List.mem_map_of_mem (f := Fault.identity) h
  rw [e.identities_renew first, List.mem_range'_1] at hmem
  exact hmem

/-! ## Identities are counted up -/

variable {G : Guest}

namespace Machine

variable {code : G.Code} {m m' : Machine G} {a : Answer G} {p : List (Machine G)}

/-- How many identities the running thread is about to be given, if it asks for some. -/
def granted? (m : Machine G) : Option Nat :=
  match m.jobs, m.mode with
  | .serve (.identities n) :: _, .going _ => some n
  | _, _ => none

/-- A request for identities is answered by the first that was not given out yet. -/
theorem step_of_granted (code : G.Code) {n : Nat} (h : m.granted? = some n) :
    (m.step code).mode = .going (.identities m.world.identities) ∧
      (m.step code).world.identities = m.world.identities + n := by
  unfold granted? at h
  split at h
  · rename_i hj hmode
    cases h
    rw [step_of_going hj hmode rfl]
    exact ⟨rfl, rfl⟩
  · cases h

/-- No job takes identities back. -/
theorem identities_perform (job : Job G) :
    m.world.identities ≤ (m.perform code a job).world.identities := by
  by_cases hids : ∃ n, job = .serve (.identities n)
  · obtain ⟨n, rfl⟩ := hids
    exact Nat.le_add_right ..
  cases hj : job.isForThread with
  | false => rw [(sameSetting_perform job hj fun n h => hids ⟨n, h⟩).identities]
  | true =>
    cases job with
    | serve q =>
      cases q with
      | thread run => exact Nat.le_refl _
      | background run delay => exact Nat.le_refl _
      | _ => cases hj
    | _ => cases hj

/-- Identities are never taken back. -/
theorem identities_step (code : G.Code) (hi : m.isIdle = false) (live : m.isAborted = false) :
    m.world.identities ≤ (m.step code).world.identities := by
  obtain ⟨job, rest, hj⟩ := exists_job hi
  cases hmode : m.mode with
  | aborted => simp [isAborted, hmode] at live
  | unwinding panic r =>
    rw [step_of_unwinding hj hmode, (sameSetting_unwind panic r job).identities]
  | going a =>
    rw [step_of_going hj hmode ((isIdle_of_going hj hmode).symm.trans hi)]
    exact identities_perform (m := { m with jobs := rest }) job

/-! ## Faults that are made -/

/-- The running thread makes fault `f`: it is given identities, and that of `f` is one of them. -/
def Makes (code : G.Code) (m : Machine G) (f : Fault) : Prop :=
  ∃ n first, m.granted? = some n ∧ (m.step code).mode = .going (.identities first) ∧
    first ≤ f.identity ∧ f.identity < first + n

theorem makes_iff {n : Nat} (h : m.granted? = some n) {f : Fault} : m.Makes code f ↔
    m.world.identities ≤ f.identity ∧ f.identity < m.world.identities + n := by
  have hanswer := (step_of_granted code h).1
  constructor
  · rintro ⟨n', first, h', hanswer', hlow, hhigh⟩
    obtain rfl := Option.some.inj (h.symm.trans h')
    obtain rfl : m.world.identities = first := by
      rw [hanswer] at hanswer'
      cases hanswer'
      rfl
    exact ⟨hlow, hhigh⟩
  · rintro ⟨hlow, hhigh⟩
    exact ⟨n, _, h, hanswer, hlow, hhigh⟩

theorem Makes.bounds {f : Fault} (h : m.Makes code f) :
    m.world.identities ≤ f.identity ∧ f.identity < (m.step code).world.identities := by
  have hmakes := h
  obtain ⟨n, first, hn, -⟩ := h
  rw [(step_of_granted code hn).2]
  exact (makes_iff hn).mp hmakes

/-- A run gives every fault that is made in it an identity of its own. -/
theorem Walk.pairwise_makes (walk : Walk code m p m') :
    p.Pairwise (fun m₁ m₂ => ∀ f g, m₁.Makes code f → m₂.Makes code g →
      f.same g = false ∧ g.same f = false) ∧
      ∀ m₁ ∈ p, ∀ f, m₁.Makes code f → f.identity < m'.world.identities := by
  induction walk with
  | here => exact ⟨.nil, by simp⟩
  | @act p m₂ _ hi live ih =>
    obtain ⟨hpairs, hbelow⟩ := ih
    have hmore := identities_step code hi live
    refine ⟨List.pairwise_append.mpr ⟨hpairs, List.pairwise_singleton _ _, ?_⟩, ?_⟩
    · intro m₁ h₁ m₃ h₃ f g hf hg
      obtain rfl := List.mem_singleton.mp h₃
      have hlt := hbelow m₁ h₁ f hf
      have hle := hg.bounds.1
      exact Fault.same_eq_false (by omega)
    · intro m₁ h₁ f hf
      rcases List.mem_append.mp h₁ with h₁ | h₁
      · exact Nat.lt_of_lt_of_le (hbelow m₁ h₁ f hf) hmore
      · obtain rfl := List.mem_singleton.mp h₁
        exact hf.bounds.2
  | turnTo _ _ ih => exact ih
  | launch _ _ ih => exact ih

/-! ## Faults that are read -/

/-- The running thread reads fault `f` out of cell `c`. -/
def Reads (code : G.Code) (m : Machine G) (c : CellId) (f : Fault) : Prop :=
  ∃ k a rest, m.jobs = .serve (.pollCell c k) :: rest ∧ m.mode = .going a ∧
    (m.step code).mode = .going (.cell (some (.faulted f)))

theorem Reads.outcome? {c : CellId} {f : Fault} (h : m.Reads code c f) :
    m.world.outcome? c = some (.faulted f) := by
  obtain ⟨k, a, rest, hj, hmode, hanswer⟩ := h
  rw [step_of_going hj hmode rfl] at hanswer
  simp only [perform, serve, pollCell, World.pollCell] at hanswer
  unfold World.outcome?
  cases hc : m.world.cell? c with
  | none => simp [hc, go] at hanswer
  | some cell =>
    cases cell with
    | pending ws => simp [hc, Cell.poll, go] at hanswer
    | settled o =>
      cases o with
      | completed v =>
        simp only [hc, Cell.poll] at hanswer
        split at hanswer <;> simp [go, raise] at hanswer
      | cancelled => simp [hc, Cell.poll, go] at hanswer
      | faulted g =>
        obtain rfl : g = f := by simpa [hc, Cell.poll, go] using hanswer
        rfl

/-- The outcome of a cell that has one is that of its first assignment. -/
theorem Reached.firstOutcome? {τ : List (Happening G)} {c : CellId} {o : Outcome}
    (hm : Reached code τ m) (h : m.world.outcome? c = some o) :
    Cell.firstOutcome? (callsOn c τ) = some o := by
  cases hfirst : Cell.firstOutcome? (callsOn c τ) with
  | some o' => rw [← h, hm.outcome?_of_settled hfirst]
  | none =>
    have htold := hm.trail.told c
    rw [Told, Cell.after_new, hfirst] at htold
    cases hc : m.world.cell? c with
    | none => simp [World.outcome?, hc] at h
    | some x =>
      rw [hc, Option.getD_some] at htold
      simp [World.outcome?, hc, htold, Cell.outcome?] at h

/-- Whoever reads a fault out of a cell reads what is in the cell for good. -/
theorem Walked.outcome?_of_reads {m₁ : Machine G} {c : CellId} {f : Fault} (hm : Walked code p m)
    (hmem : m₁ ∈ p) (h : m₁.Reads code c f) : m.world.outcome? c = some (.faulted f) := by
  obtain ⟨shared, run, walk⟩ := hm
  obtain ⟨p₁, p₂, rfl, before, hi, live, after⟩ := walk.of_mem hmem
  have hm₁ : Walked code p₁ m₁ := ⟨shared, run, before⟩
  have hm : Walked code (p₁ ++ m₁ :: p₂) m := ⟨shared, run, walk⟩
  refine hm.reached.outcome?_of_settled ?_
  rw [List.flatMap_append, callsOn_append, Cell.firstOutcome?, List.findSome?_append,
    ← Cell.firstOutcome?, hm₁.reached.firstOutcome? h.outcome?, Option.some_or]

/-! ## All runs -/

/-- **Faults are transparent, and stay themselves.** In every run,

* whatever is bound in a fault, and however many faults are around it, the fault reads and shows
  like its error, and a walk from the error that carries it meets the fault and then what a walk
  from its error meets, up to the end;
* faults that are made one after the other are no copies of each other, whatever is bound in them,
  and neither are those that are made at once for one error;
* all that read a cell get copies of one fault. -/
theorem faults_stay_themselves (hm : Walked code p m) :
    (∀ i layers b, Transparent (.mk i (Bound.wrapped layers b)) b) ∧
    p.Pairwise (fun m₁ m₂ => ∀ f g, m₁.Makes code f → m₂.Makes code g →
      f.same g = false ∧ g.same f = false) ∧
    (∀ m₁ ∈ p, ∀ n, m₁.granted? = some n →
      ∃ first, (m₁.step code).mode = .going (.identities first) ∧
        ∀ e : Error, e.faults ≤ n → (∀ f ∈ (e.renew first).carried, m₁.Makes code f) ∧
          (e.renew first).carried.Pairwise (fun f g => f.same g = false ∧ g.same f = false)) ∧
    ∀ c, ∀ m₁ ∈ p, ∀ m₂ ∈ p, ∀ f g, m₁.Reads code c f → m₂.Reads code c g →
      f = g ∧ f.same g = true := by
  refine ⟨Fault.transparent, ?_, ?_, ?_⟩
  · obtain ⟨shared, run, walk⟩ := hm
    exact walk.pairwise_makes.1
  · intro m₁ _ n hn
    refine ⟨_, (step_of_granted code hn).1, fun e he => ⟨fun f hf => ?_, e.pairwise_renew _⟩⟩
    obtain ⟨hlow, hhigh⟩ := Error.identity_of_carried hf
    exact (makes_iff hn).mpr ⟨hlow, by omega⟩
  · intro c m₁ h₁ m₂ h₂ f g hf hg
    obtain rfl : f = g := by
      simpa using (hm.outcome?_of_reads h₁ hf).symm.trans (hm.outcome?_of_reads h₂ hg)
    exact ⟨rfl, by simp [Fault.same]⟩

open Script

/-- A main future that makes a fault, and then two at once, one around the other. -/
def faultsInTurn : List (String × Statement) :=
  onLoop
    [[line "source" "s" (.source "s" none),
      line "set_exception" "s" (.settle "s" (.faulted (.mk 0 (.text "boom")))),
      line "source" "t" (.source "t" none),
      line "set_exception" "t" (.settle "t" (.faulted (.mk 0 (.fault (.mk 0 (.text "boom"))))))]]

/-- A fault that is bound in another one, which was made later, reads alike and is no copy of it. -/
theorem faults_stay_themselves_of_script :
    ∃ f g, g.bound = .fault f ∧ (∃ m₁ ∈ (follow faultsInTurn 31).1, m₁.Makes Script.code f) ∧
      (∃ m₂ ∈ (follow faultsInTurn 31).1, m₂.Makes Script.code g) ∧ g.message = f.message ∧
      (Error.faulted g).sources = ["boom"] ∧ f.same g = false := by
  have hgranted : (follow faultsInTurn 31).1.filterMap granted? = [1, 2] := by decide +kernel
  have h := faults_stay_themselves (walked_follow faultsInTurn 31)
  obtain ⟨p₁, m₁, p₂, hp, -, h₁, hlater⟩ := List.filterMap_eq_cons_iff.mp hgranted
  obtain ⟨p₃, m₂, p₄, rfl, -, h₂, -⟩ := List.filterMap_eq_cons_iff.mp hlater
  let f : Fault := .mk m₁.world.identities (.text "boom")
  let g : Fault := .mk m₂.world.identities (.fault f)
  have hf : m₁.Makes Script.code f := (makes_iff h₁).mpr ⟨Nat.le_refl _, Nat.lt_succ_self _⟩
  have hg : m₂.Makes Script.code g :=
    (makes_iff h₂).mpr ⟨Nat.le_refl _, Nat.lt_add_of_pos_right Nat.two_pos⟩
  have hseen : Transparent g (.text "boom") := h.1 _ [m₁.world.identities] _
  have hpairs := h.2.1
  rw [hp, List.pairwise_append, List.pairwise_cons] at hpairs
  refine ⟨f, g, rfl, ⟨m₁, by simp [hp], hf⟩, ⟨m₂, by simp [hp], hg⟩, hseen.message,
    hseen.sources.1, ?_⟩
  exact (hpairs.2.1.1 m₂ (by simp) f g hf hg).1

end Machine

end RunLoop
