/-
Deterministic machines and their runs.

A machine is a step function that answers one input with one output and a new
state.  Everything the development says about "every sequence of calls" is said
about `exec`, the state a list of inputs leads to, and `trace`, the events of the
run in order.

The one induction principle is `trace_induction`: what relates the history to the
state is kept by every step that satisfies a side condition, so it relates them
after every run all of whose steps satisfy it.  A plain state invariant is the
case where the history is ignored.
-/
import Mathlib.Data.List.Basic

namespace Netz.Lib

open List

universe u v w

variable {σ : Type u} {α : Type v} {β : Type w}

/-- One step of a run, with the states on either side of it. -/
structure Event (σ : Type u) (α : Type v) (β : Type w) where
  pre : σ
  input : α
  output : β
  post : σ

/-- The event a machine produces at a state. -/
def event (step : σ → α → β × σ) (s : σ) (a : α) : Event σ α β :=
  ⟨s, a, (step s a).1, (step s a).2⟩

/-- The state a list of inputs leads to. -/
def exec (step : σ → α → β × σ) : σ → List α → σ
  | s, [] => s
  | s, a :: rest => exec step (step s a).2 rest

/-- The events of a run, oldest first. -/
def trace (step : σ → α → β × σ) : σ → List α → List (Event σ α β)
  | _, [] => []
  | s, a :: rest => event step s a :: trace step (step s a).2 rest

variable {step : σ → α → β × σ}

@[simp] lemma exec_nil (s : σ) : exec step s [] = s := rfl

@[simp] lemma exec_cons (s : σ) (a : α) (rest : List α) :
    exec step s (a :: rest) = exec step (step s a).2 rest := rfl

@[simp] lemma trace_nil (s : σ) : trace step s [] = [] := rfl

@[simp] lemma trace_cons (s : σ) (a : α) (rest : List α) :
    trace step s (a :: rest) = event step s a :: trace step (step s a).2 rest := rfl

/-- **What every admissible step keeps, every admissible run keeps.** -/
theorem trace_induction (step : σ → α → β × σ) {s₀ : σ} (P : σ → α → Prop) (Inv : List (Event σ α β) → σ → Prop)
    (hinit : Inv [] s₀)
    (hstep : ∀ h s a, Inv h s → P s a → Inv (h ++ [event step s a]) (step s a).2)
    (as : List α) (hP : ∀ e ∈ trace step s₀ as, P e.pre e.input) :
    Inv (trace step s₀ as) (exec step s₀ as) := by
  -- The history already played is carried along, and the rest is what is inducted on.
  have key : ∀ (as : List α) (h : List (Event σ α β)) (s : σ), Inv h s →
      (∀ e ∈ trace step s as, P e.pre e.input) → Inv (h ++ trace step s as) (exec step s as) := by
    intro as
    induction as with
    | nil => intro h s hi _; simpa using hi
    | cons a rest ih =>
      intro h s hi hall
      have hnext := hstep h s a hi (hall (event step s a) (by simp))
      have := ih _ _ hnext (fun e he => hall e (by simp [he]))
      simpa using this
  simpa using key as [] s₀ hinit hP

/-- The state part alone, when no step is excluded. -/
theorem exec_induction (step : σ → α → β × σ) {s₀ : σ} (Inv : σ → Prop) (hinit : Inv s₀)
    (hstep : ∀ s a, Inv s → Inv (step s a).2) (as : List α) : Inv (exec step s₀ as) :=
  trace_induction step (fun _ _ => True) (fun _ s => Inv s) hinit
    (fun _ s a hi _ => hstep s a hi) as (fun _ _ => trivial)

/-- Over a run whose keys ascend, a step may rely on its key being a new largest one. -/
theorem trace_induction_ascending (step : σ → α → β × σ) {s₀ : σ} (key : α → Option Nat)
    (P : α → Prop) (Inv : List (Event σ α β) → Nat → σ → Prop) (hinit : Inv [] 0 s₀)
    (hstep : ∀ h next s a, Inv h next s → P a → (∀ n, key a = some n → next ≤ n) →
      Inv (h ++ [event step s a]) ((key a).elim next (· + 1)) (step s a).2)
    (as : List α) (hP : ∀ a ∈ as, P a) (hasc : (as.filterMap key).Pairwise (· < ·)) :
    ∃ next, Inv (trace step s₀ as) next (exec step s₀ as) := by
  have run : ∀ (as : List α) (h : List (Event σ α β)) (next : Nat) (s : σ), Inv h next s →
      (∀ a ∈ as, P a) → (as.filterMap key).Pairwise (· < ·) → (∀ n ∈ as.filterMap key, next ≤ n) →
      ∃ last, Inv (h ++ trace step s as) last (exec step s as) := by
    intro as
    induction as with
    | nil => intro h next s hi _ _ _; exact ⟨next, by simpa using hi⟩
    | cons a rest ih =>
      intro h next s hi hall hpair hlow
      have hnext := hstep h next s a hi (hall a mem_cons_self) (fun n hn => by
        refine hlow n ?_
        rw [filterMap_cons_some hn]
        exact mem_cons_self)
      have hrest : (rest.filterMap key).Pairwise (· < ·) ∧
          ∀ n ∈ rest.filterMap key, (key a).elim next (· + 1) ≤ n := by
        cases hk : key a with
        | none =>
          rw [filterMap_cons_none hk] at hpair hlow
          exact ⟨hpair, hlow⟩
        | some k =>
          rw [filterMap_cons_some hk, pairwise_cons] at hpair
          exact ⟨hpair.2, fun n hn => hpair.1 n hn⟩
      obtain ⟨last, hlast⟩ := ih _ _ _ hnext
        (fun b hb => hall b (mem_cons_of_mem a hb)) hrest.1 hrest.2
      exact ⟨last, by simpa using hlast⟩
  obtain ⟨next, hnext⟩ := run as [] 0 s₀ hinit hP hasc (fun n _ => Nat.zero_le n)
  exact ⟨next, by simpa using hnext⟩

lemma map_input_trace (s : σ) (as : List α) : (trace step s as).map (·.input) = as := by
  induction as generalizing s with
  | nil => rfl
  | cons a rest ih =>
    rw [trace_cons, map_cons, ih]
    rfl

lemma input_mem {s : σ} {as : List α} {e : Event σ α β} (he : e ∈ trace step s as) :
    e.input ∈ as := by
  induction as generalizing s with
  | nil => simp at he
  | cons a rest ih =>
    rw [trace_cons, mem_cons] at he
    rcases he with rfl | hrest
    · exact mem_cons_self
    · exact mem_cons_of_mem a (ih hrest)

/-- Every event of a run is a step from a state in which the invariant holds. -/
theorem trace_pre (step : σ → α → β × σ) {s₀ : σ} (Inv : σ → Prop) (hinit : Inv s₀)
    (hstep : ∀ s a, Inv s → Inv (step s a).2) (as : List α) :
    ∀ e ∈ trace step s₀ as, Inv e.pre ∧ e = event step e.pre e.input := by
  induction as generalizing s₀ with
  | nil => intro e he; simp at he
  | cons a rest ih =>
    intro e he
    rw [trace_cons, mem_cons] at he
    rcases he with hfirst | hrest
    · rw [hfirst]
      exact ⟨hinit, rfl⟩
    · exact ih (hstep s₀ a hinit) e hrest

lemma trace_take (s : σ) (as : List α) (n : Nat) :
    trace step s (as.take n) = (trace step s as).take n := by
  induction as generalizing s n with
  | nil => simp
  | cons a rest ih =>
    cases n with
    | zero => rfl
    | succ n => rw [take_succ_cons, trace_cons, trace_cons, take_succ_cons, ih]

lemma exec_take_succ {s : σ} {as : List α} {n : Nat} {a : α} (ha : as[n]? = some a) :
    exec step s (as.take (n + 1)) = (step (exec step s (as.take n)) a).2 := by
  induction as generalizing s n with
  | nil => simp at ha
  | cons b rest ih =>
    cases n with
    | zero =>
      cases ha
      simp
    | succ n => exact ih ha

/-- An event of a run is a step from the state that the calls before it lead to. -/
theorem mem_trace {s : σ} {as : List α} {e : Event σ α β} (he : e ∈ trace step s as) :
    ∃ n a, as[n]? = some a ∧ e = event step (exec step s (as.take n)) a := by
  induction as generalizing s with
  | nil => simp at he
  | cons b rest ih =>
    rw [trace_cons, mem_cons] at he
    rcases he with hfirst | hrest
    · exact ⟨0, b, rfl, hfirst⟩
    · obtain ⟨n, a, ha, hevent⟩ := ih hrest
      exact ⟨n + 1, a, ha, hevent⟩

/-! ### Answers -/

/-- What a machine answers to a list of inputs. -/
def answers (step : σ → α → β × σ) (s : σ) (as : List α) : List β :=
  (trace step s as).map (·.output)

@[simp] lemma answers_nil (s : σ) : answers step s [] = [] := rfl

@[simp] lemma answers_cons (s : σ) (a : α) (rest : List α) :
    answers step s (a :: rest) = (step s a).1 :: answers step (step s a).2 rest := rfl

lemma exec_append (s : σ) (first rest : List α) :
    exec step s (first ++ rest) = exec step (exec step s first) rest := by
  induction first generalizing s with
  | nil => rfl
  | cons a first ih => exact ih (step s a).2

lemma answers_append (s : σ) (first rest : List α) :
    answers step s (first ++ rest) =
      answers step s first ++ answers step (exec step s first) rest := by
  induction first generalizing s with
  | nil => rfl
  | cons a first ih =>
    rw [cons_append, answers_cons, ih]
    rfl

end Netz.Lib
