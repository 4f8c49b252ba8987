import KeySteward.Proofs.CallBoundaries

/-! Two programs at one service, whose calls come in any order of turns. What each may rely on is an
accord, which says how a state looks to both and what either may do to it. A program abides by the
accord when it keeps to its own moves whatever moves the other one makes between its calls; two
programs that abide each end as they would have to, and in one state. -/

namespace KeySteward

/-- One of two programs that share a service. -/
inductive Side where
  | left
  | right
  deriving DecidableEq, Repr

def Side.other : Side → Side
  | left => right
  | right => left

theorem Side.other_other (side : Side) : side.other.other = side := by
  cases side <;> rfl

theorem Side.other_ne (side : Side) : side.other ≠ side := by
  cases side <;> nofun

theorem Side.eq_or_eq_other (part side : Side) : part = side ∨ part = side.other := by
  cases part <;> cases side <;> simp [other]

variable {σ τ α β : Type} {service : Service σ}

namespace Program

/-- The program behind its next call, unless the service breaks off. One that has come to its end
stays there. -/
def advance (service : Service σ) : Program α → σ → Option (Program α) × σ
  | .call request next, state =>
    ((service.reply request state).1.map next, (service.reply request state).2)
  | program, state => (some program, state)

/-- How two programs end whose calls are made in the order of the turns, and the state they leave. The
turn of a program without a call passes. After the turns the left program goes on to its end, and then
the right one. -/
def interleave (service : Service σ) :
    List Side → Program α → Program β → σ → (Ending α × Ending β) × σ
  | [], left, right, state =>
    let (first, middle) := left.eval service state
    let (second, last) := right.eval service middle
    ((first, second), last)
  | .left :: turns, left, right, state =>
    match left.advance service state with
    | (some left, state) => interleave service turns left right state
    | (none, state) =>
      let (second, last) := right.eval service state
      ((.crashed, second), last)
  | .right :: turns, left, right, state =>
    match right.advance service state with
    | (some right, state) => interleave service turns left right state
    | (none, state) =>
      let (first, last) := left.eval service state
      ((first, .crashed), last)

end Program

/-- What two programs make of the states that they share: how a state looks to them, and which moves a
side may make from one look to another. -/
structure Accord (σ τ : Type) where
  shows : τ → σ → Prop
  moves : Side → τ → τ → Prop
  refl : ∀ side look, moves side look look
  trans : ∀ {side first second third},
    moves side first second → moves side second third → moves side first third

variable {accord : Accord σ τ} {side : Side}

namespace Program

/-- From a look on, the program makes the moves of its side and ends as it is said to. The other side
may have moved before each of its calls and after its end. -/
def Abides (service : Service σ) (accord : Accord σ τ) (side : Side) (ends : Ending α → τ → Prop) :
    Program α → τ → Prop
  | .done value, look => ∀ last, accord.moves side.other look last → ends (.finished value) last
  | .call request next, look => ∀ met state, accord.moves side.other look met →
      accord.shows met state →
      ∃ left, accord.moves side met left ∧ accord.shows left (service.reply request state).2 ∧
        match (service.reply request state).1 with
        | some result => (next result).Abides service accord side ends left
        | none => ∀ last, accord.moves side.other left last → ends .crashed last
  | .unfinished, look => ∀ last, accord.moves side.other look last → ends .unfinished last

namespace Abides

variable {program : Program α} {ends : Ending α → τ → Prop} {look : τ}

private theorem moved (abides : program.Abides service accord side ends look) {met : τ}
    (moves : accord.moves side.other look met) : program.Abides service accord side ends met := by
  cases program with
  | done value => exact fun last later => abides last (accord.trans moves later)
  | unfinished => exact fun last later => abides last (accord.trans moves later)
  | call request next =>
    exact fun other state later shown => abides other state (accord.trans moves later) shown

theorem mono {wider : Ending α → τ → Prop} (abides : program.Abides service accord side ends look)
    (implies : ∀ ending last, ends ending last → wider ending last) :
    program.Abides service accord side wider look := by
  induction program generalizing look with
  | done value => exact fun last moves => implies _ _ (abides last moves)
  | unfinished => exact fun last moves => implies _ _ (abides last moves)
  | call request next ih =>
    intro met state moves shown
    obtain ⟨left, made, kept, onward⟩ := abides met state moves shown
    refine ⟨left, made, kept, ?_⟩
    cases replied : (service.reply request state).1 with
    | none =>
      rw [replied] at onward
      exact fun last moves => implies _ _ (onward last moves)
    | some result =>
      rw [replied] at onward
      exact ih result onward

/-- A sequence abides where its parts do; the second one begins as the first one has ended, whatever
the other side does then. -/
theorem bind {next : α → Program β} {onward : Ending β → τ → Prop}
    (first : program.Abides service accord side ends look)
    (rest : ∀ value middle,
      (∀ last, accord.moves side.other middle last → ends (.finished value) last) →
      (next value).Abides service accord side onward middle)
    (crashed : ∀ last, ends .crashed last → onward .crashed last)
    (unfinished : ∀ last, ends .unfinished last → onward .unfinished last) :
    (program >>= next).Abides service accord side onward look := by
  change (program.bind next).Abides service accord side onward look
  induction program generalizing look with
  | done value => exact rest value look first
  | unfinished => exact fun last moves => unfinished last (first last moves)
  | call request following ih =>
    intro met state moves shown
    obtain ⟨left, made, kept, later⟩ := first met state moves shown
    refine ⟨left, made, kept, ?_⟩
    cases replied : (service.reply request state).1 with
    | none =>
      rw [replied] at later
      exact fun last moves => crashed last (later last moves)
    | some result =>
      rw [replied] at later
      exact ih result later

private theorem bind_finished {next : α → Program β} {onward : Ending β → τ → Prop}
    (first : program.Abides service accord side ends look)
    (finishes : ∀ ending last, ends ending last → ∃ value, ending = .finished value)
    (rest : ∀ value middle,
      (∀ last, accord.moves side.other middle last → ends (.finished value) last) →
      (next value).Abides service accord side onward middle) :
    (program >>= next).Abides service accord side onward look := by
  refine bind first rest (fun last ended => ?_) fun last ended => ?_
  · obtain ⟨_, same⟩ := finishes _ _ ended
    cases same
  · obtain ⟨_, same⟩ := finishes _ _ ended
    cases same

theorem bind_value {next : α → Program β} {value : α} {holds : τ → Prop}
    {onward : Ending β → τ → Prop}
    (first : program.Abides service accord side
      (fun ending last => ending = .finished value ∧ holds last) look)
    (rest : ∀ middle, (∀ last, accord.moves side.other middle last → holds last) →
      (next value).Abides service accord side onward middle) :
    (program >>= next).Abides service accord side onward look := by
  refine bind_finished first (fun _ _ ended => ⟨value, ended.1⟩) fun found middle ended => ?_
  obtain ⟨same, -⟩ := ended middle (accord.refl _ middle)
  cases same
  exact rest middle fun last moved => (ended last moved).2

/-- What every move leads on to is led on to by the whole. -/
theorem onward (leads : τ → τ → Prop) (trans : ∀ {first second third},
      leads first second → leads second third → leads first third)
    (moves : ∀ side {before after}, accord.moves side before after → leads before after)
    (abides : program.Abides service accord side ends look) :
    program.Abides service accord side
      (fun ending last => ends ending last ∧ leads look last) look := by
  induction program generalizing look with
  | done value => exact fun last moved => ⟨abides last moved, moves _ moved⟩
  | unfinished => exact fun last moved => ⟨abides last moved, moves _ moved⟩
  | call request next ih =>
    intro met state moved shown
    obtain ⟨left, made, kept, later⟩ := abides met state moved shown
    have begun : leads look left := trans (moves _ moved) (moves _ made)
    refine ⟨left, made, kept, ?_⟩
    cases replied : (service.reply request state).1 with
    | none =>
      rw [replied] at later
      exact fun last after => ⟨later last after, trans begun (moves _ after)⟩
    | some result =>
      rw [replied] at later
      exact (ih result later).mono fun _ _ ended => ⟨ended.1, trans begun ended.2⟩

section Runs

variable {state : σ} (shown : accord.shows look state)

include shown

private theorem advance (abides : program.Abides service accord side ends look) :
    ∃ left, accord.moves side look left ∧ accord.shows left (program.advance service state).2 ∧
      match (program.advance service state).1 with
      | some rest => rest.Abides service accord side ends left
      | none => ∀ last, accord.moves side.other left last → ends .crashed last := by
  cases program with
  | done value => exact ⟨look, accord.refl _ look, shown, abides⟩
  | unfinished => exact ⟨look, accord.refl _ look, shown, abides⟩
  | call request next =>
    obtain ⟨left, made, kept, onward⟩ := abides look state (accord.refl _ look) shown
    refine ⟨left, made, kept, ?_⟩
    simp only [Program.advance]
    cases replied : (service.reply request state).1 with
    | none =>
      rw [replied] at onward
      exact onward
    | some result =>
      rw [replied] at onward
      exact onward

/-- Left to itself, the program ends as it is said to, also behind later moves of the other side. -/
theorem eval (abides : program.Abides service accord side ends look) :
    ∃ left, accord.moves side look left ∧ accord.shows left (program.eval service state).2 ∧
      ∀ last, accord.moves side.other left last → ends (program.eval service state).1 last := by
  induction program generalizing look state with
  | done value => exact ⟨look, accord.refl _ look, shown, abides⟩
  | unfinished => exact ⟨look, accord.refl _ look, shown, abides⟩
  | call request next ih =>
    obtain ⟨left, made, kept, onward⟩ := abides look state (accord.refl _ look) shown
    rw [eval_call]
    rcases replied : service.reply request state with ⟨_ | result, after⟩
    · rw [replied] at kept onward
      exact ⟨left, made, kept, onward⟩
    · rw [replied] at kept onward
      obtain ⟨last, later, reached, ended⟩ := ih result kept onward
      exact ⟨last, accord.trans made later, reached, ended⟩

end Runs

theorem eval_eval {second : Program β} {also : Ending β → τ → Prop} {state : σ}
    (first : program.Abides service accord side ends look)
    (later : second.Abides service accord side.other also look) (shown : accord.shows look state) :
    ∃ last, accord.shows last (second.eval service (program.eval service state).2).2 ∧
      ends (program.eval service state).1 last ∧
      also (second.eval service (program.eval service state).2).1 last := by
  obtain ⟨middle, moved, reached, ended⟩ := first.eval shown
  obtain ⟨last, onward, left, done⟩ :=
    (later.moved (by rwa [side.other_other])).eval reached
  exact ⟨last, left, ended last onward, done last (accord.refl _ last)⟩

/-- In whatever order their calls are made, two programs that abide by an accord end as they are said
to. -/
theorem interleave {right : Program β} {also : Ending β → τ → Prop} {state : σ}
    (turns : List Side) (first : program.Abides service accord .left ends look)
    (second : right.Abides service accord .right also look) (shown : accord.shows look state) :
    ∃ last, accord.shows last (program.interleave service turns right state).2 ∧
      ends (program.interleave service turns right state).1.1 last ∧
      also (program.interleave service turns right state).1.2 last := by
  induction turns generalizing program right look state with
  | nil => exact first.eval_eval second shown
  | cons turn turns ih =>
    cases turn with
    | left =>
      obtain ⟨middle, moved, reached, onward⟩ := first.advance shown
      have other := second.moved moved
      simp only [Program.interleave]
      rcases advanced : program.advance service state with ⟨_ | rest, after⟩
      · rw [advanced] at reached onward
        obtain ⟨last, later, left, done⟩ := other.eval reached
        exact ⟨last, left, onward last later, done last (accord.refl _ last)⟩
      · rw [advanced] at reached onward
        exact ih onward other reached
    | right =>
      obtain ⟨middle, moved, reached, onward⟩ := second.advance shown
      have other := first.moved moved
      simp only [Program.interleave]
      rcases advanced : right.advance service state with ⟨_ | rest, after⟩
      · rw [advanced] at reached onward
        obtain ⟨last, later, left, done⟩ := other.eval reached
        exact ⟨last, left, done last (accord.refl _ last), onward last later⟩
      · rw [advanced] at reached onward
        exact ih other onward reached

end Abides

end Program

namespace Pass

variable {ε ρ : Type}

/-- While the other side makes its moves, the program abides by the accord and succeeds with a value of
which the look at its end holds, and every later look of the other side's making. -/
def Delivers (service : Service σ) (accord : Accord σ τ) (side : Side) (pass : ExceptT ε Program α)
    (holds : α → τ → Prop) (look : τ) : Prop :=
  pass.run.Abides service accord side
    (fun ending last => ∃ value, ending = .finished (.ok value) ∧ holds value last) look

namespace Delivers

variable {pass : ExceptT ε Program α} {holds : α → τ → Prop} {look : τ}

theorem mono {wider : α → τ → Prop} (delivers : Delivers service accord side pass holds look)
    (implies : ∀ value last, holds value last → wider value last) :
    Delivers service accord side pass wider look := by
  refine Program.Abides.mono delivers ?_
  rintro _ last ⟨value, rfl, held⟩
  exact ⟨value, rfl, implies value last held⟩

theorem pure {value : α} (held : ∀ last, accord.moves side.other look last → holds value last) :
    Delivers service accord side (pure value : ExceptT ε Program α) holds look :=
  fun last moved => ⟨value, rfl, held last moved⟩

theorem bind_run {next : Except ε α → Program β} {onward : Ending β → τ → Prop}
    (first : Delivers service accord side pass holds look)
    (rest : ∀ value middle, holds value middle →
      (next (.ok value)).Abides service accord side onward middle) :
    (pass.run >>= next).Abides service accord side onward look := by
  refine Program.Abides.bind_finished first (fun _ _ ⟨_, ended, _⟩ => ⟨_, ended⟩) ?_
  intro result middle ended
  obtain ⟨value, same, held⟩ := ended middle (accord.refl _ middle)
  cases same
  exact rest value middle held

theorem bind {next : α → ExceptT ε Program β} {onward : β → τ → Prop}
    (first : Delivers service accord side pass holds look)
    (rest : ∀ value middle, holds value middle →
      Delivers service accord side (next value) onward middle) :
    Delivers service accord side (pass >>= next) onward look := by
  unfold Delivers
  rw [ExceptT.run_bind]
  exact first.bind_run rest

private theorem mapError {δ : Type} {rename : ε → δ}
    (delivers : Delivers service accord side pass holds look) :
    (Except.mapError rename <$> pass.run).Abides service accord side
      (fun ending last => ∃ value, ending = .finished (.ok value) ∧ holds value last) look := by
  rw [map_eq_pure_bind]
  refine Program.Abides.bind_finished delivers (fun _ _ ⟨_, ended, _⟩ => ⟨_, ended⟩) ?_
  intro result middle ended last moved
  obtain ⟨value, same, held⟩ := ended last moved
  cases same
  exact ⟨value, rfl, held⟩

theorem lookup {pass : Pass α} (delivers : Delivers service accord side pass holds look) :
    Delivers service accord side pass.lookup holds look :=
  mapError delivers

theorem call {request : Request} {holds : request.Answer → τ → Prop}
    (answers : ∀ met state, accord.moves side.other look met → accord.shows met state →
      ∃ answer left after, service.handle request state = (.ok answer, after) ∧
        accord.moves side met left ∧ accord.shows left after ∧
        ∀ last, accord.moves side.other left last → holds answer last) :
    Delivers service accord side (call request) holds look := by
  intro met state moved shown
  obtain ⟨answer, left, after, handled, made, kept, held⟩ := answers met state moved shown
  have replied : service.reply request state = (some (.ok answer), after) := by
    simp only [Service.reply, handled]
  rw [replied]
  exact ⟨left, made, kept, fun last later => ⟨answer, rfl, held last later⟩⟩

end Delivers

end Pass

end KeySteward
