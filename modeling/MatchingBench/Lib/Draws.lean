import Mathlib.Logic.Basic

/-!
# Programs that draw random numbers

A program asks for one draw after another and continues with the outcome.
Every draw carries a mark, so that one can say which draws a result does not
depend on.  Programs are run on an infinite stream of outcomes.
-/

set_option autoImplicit false

namespace MatchingBench.Lib.Draws

variable {μ δ α β γ : Type}

/-- A program with marks `μ` and outcomes `δ`. -/
inductive Sampler (μ δ α : Type) where
  | done (result : α)
  | draw (mark : μ) (next : δ → Sampler μ δ α)

namespace Sampler

/-- Continue with the result of a program. -/
def andThen (program : Sampler μ δ α) (next : α → Sampler μ δ β) :
    Sampler μ δ β :=
  match program with
  | done result => next result
  | draw mark later => draw mark fun outcome => (later outcome).andThen next

instance : Monad (Sampler μ δ) where
  pure := done
  bind := andThen

/-- One draw. -/
def ask (mark : μ) : Sampler μ δ δ :=
  draw mark done

/-- The result on a stream of outcomes. -/
def run : Sampler μ δ α → (Nat → δ) → α
  | done result, _ => result
  | draw _ next, stream => (next (stream 0)).run fun n => stream (n + 1)

/-- The outcomes that a program leaves on a stream. -/
def after : Sampler μ δ α → (Nat → δ) → Nat → δ
  | done _, stream => stream
  | draw _ next, stream => (next (stream 0)).after fun n => stream (n + 1)

/-- The second program runs on what the first one leaves. -/
theorem run_bind
    (program : Sampler μ δ α) (next : α → Sampler μ δ β)
    (stream : Nat → δ) :
    (program >>= next).run stream =
      (next (program.run stream)).run (program.after stream) := by
  induction program generalizing stream with
  | done result => rfl
  | draw mark later induction => exact induction (stream 0) _

/-- Applying a function to the result draws nothing more. -/
theorem run_bind_pure
    (program : Sampler μ δ α) (change : α → β) (stream : Nat → δ) :
    (program >>= fun result => pure (change result)).run stream =
      change (program.run stream) :=
  run_bind program _ stream

/-- The positions of the stream that a marked draw reads. -/
def ReadsMarked (marked : μ → Prop) : Sampler μ δ α → (Nat → δ) → Nat → Prop
  | done _, _, _ => False
  | draw mark _, _, 0 => marked mark
  | draw _ next, stream, n + 1 =>
      (next (stream 0)).ReadsMarked marked (fun n => stream (n + 1)) n

/-! ## What holds of every result -/

/-- A property of the results on all streams. -/
inductive All (property : α → Prop) : Sampler μ δ α → Prop where
  | done {result : α} (holds : property result) : All property (done result)
  | draw {mark : μ} {next : δ → Sampler μ δ α}
      (later : ∀ outcome, All property (next outcome)) :
      All property (draw mark next)

section All

variable {property : α → Prop} {other : β → Prop}

theorem All.bind
    {program : Sampler μ δ α} {next : α → Sampler μ δ β}
    (all : All property program)
    (later : ∀ result, property result → All other (next result)) :
    All other (program >>= next) := by
  induction all with
  | done holds => exact later _ holds
  | draw _ induction => exact All.draw induction

theorem All.ask
    {mark : μ} {next : δ → Sampler μ δ β}
    (later : ∀ outcome, All other (next outcome)) :
    All other (Sampler.ask mark >>= next) :=
  All.draw later

theorem All.run
    {program : Sampler μ δ α} (all : All property program)
    (stream : Nat → δ) : property (program.run stream) := by
  induction all generalizing stream with
  | done holds => exact holds
  | draw _ induction => exact induction _ _

theorem All.mono
    {weaker : α → Prop} {program : Sampler μ δ α}
    (all : All property program)
    (implies : ∀ result, property result → weaker result) :
    All weaker program := by
  induction all with
  | done holds => exact All.done (implies _ holds)
  | draw _ induction => exact All.draw induction

end All

/-! ## What marked draws do not change -/

/--
Two programs draw alike and end in related results, whatever the outcomes of
the marked draws are in either of them.
-/
inductive Related (marked : μ → Prop) (related : α → β → Prop) :
    Sampler μ δ α → Sampler μ δ β → Prop where
  | done {left : α} {right : β} (holds : related left right) :
      Related marked related (done left) (done right)
  | same {mark : μ} {left : δ → Sampler μ δ α} {right : δ → Sampler μ δ β}
      (unmarked : ¬marked mark)
      (later : ∀ outcome,
        Related marked related (left outcome) (right outcome)) :
      Related marked related (draw mark left) (draw mark right)
  | any {mark : μ} {left : δ → Sampler μ δ α} {right : δ → Sampler μ δ β}
      (later : ∀ outcome outcome',
        Related marked related (left outcome) (right outcome')) :
      Related marked related (draw mark left) (draw mark right)

section Related

variable {α' β' : Type} {marked : μ → Prop} {related : α → β → Prop}
  {relatedAfter : α' → β' → Prop}

theorem Related.bind
    {left : Sampler μ δ α} {right : Sampler μ δ β}
    {next : α → Sampler μ δ α'} {next' : β → Sampler μ δ β'}
    (first : Related marked related left right)
    (later : ∀ a b, related a b →
      Related marked relatedAfter (next a) (next' b)) :
    Related marked relatedAfter (left >>= next) (right >>= next') := by
  induction first with
  | done holds => exact later _ _ holds
  | same unmarked _ induction => exact Related.same unmarked induction
  | any _ induction => exact Related.any induction

theorem Related.ask
    {mark : μ} {next : δ → Sampler μ δ α} {next' : δ → Sampler μ δ β}
    (unmarked : ¬marked mark)
    (later : ∀ outcome, Related marked related (next outcome) (next' outcome)) :
    Related marked related (Sampler.ask mark >>= next)
      (Sampler.ask mark >>= next') :=
  Related.same unmarked later

theorem Related.ask_any
    {mark : μ} {next : δ → Sampler μ δ α} {next' : δ → Sampler μ δ β}
    (later : ∀ outcome outcome',
      Related marked related (next outcome) (next' outcome')) :
    Related marked related (Sampler.ask mark >>= next)
      (Sampler.ask mark >>= next') :=
  Related.any later

/-- What holds of all results of either program holds of related ones. -/
theorem Related.and_all
    {left : Sampler μ δ α} {right : Sampler μ δ β} {property : α → Prop}
    {other : β → Prop} (relates : Related marked related left right)
    (all : All property left) (allRight : All other right) :
    Related marked (fun a b => related a b ∧ property a ∧ other b) left
      right := by
  induction relates with
  | done holds =>
      cases all with
      | done first =>
          cases allRight with
          | done second => exact Related.done ⟨holds, first, second⟩
  | same unmarked _ induction =>
      cases all with
      | draw first =>
          cases allRight with
          | draw second =>
              exact Related.same unmarked fun outcome =>
                induction outcome (first outcome) (second outcome)
  | any _ induction =>
      cases all with
      | draw first =>
          cases allRight with
          | draw second =>
              exact Related.any fun outcome outcome' =>
                induction outcome outcome' (first outcome) (second outcome')

/--
Streams that differ at most where the first program reads marked draws give
related results.
-/
theorem Related.run
    {left : Sampler μ δ α} {right : Sampler μ δ β}
    (relates : Related marked related left right) {stream stream' : Nat → δ}
    (agree : ∀ n, ¬left.ReadsMarked marked stream n → stream n = stream' n) :
    related (left.run stream) (right.run stream') := by
  induction relates generalizing stream stream' with
  | done holds => exact holds
  | @same mark left right unmarked _ induction =>
      have first : stream 0 = stream' 0 := agree 0 unmarked
      rw [Sampler.run, Sampler.run, ← first]
      exact induction (stream 0) fun n reads => agree (n + 1) reads
  | @any mark left right _ induction =>
      exact induction (stream 0) (stream' 0) fun n reads =>
        agree (n + 1) reads

end Related

end Sampler

end MatchingBench.Lib.Draws
