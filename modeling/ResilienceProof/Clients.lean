import Mathlib.Order.Nat
import Mathlib.Tactic.Common
import ResilienceProof.Runs

/-! # Clients of a server that answers one question at a time

A client works on shared data through a server: it asks a question, computes something from
the answer, asks the next question, and at last returns a result.  `Prog` is such a client,
a tree of questions with one branch for each answer, so that a loop with a bound is a
recursion on the bound and what a client does with an answer is a function.

A program can be run alone (`Prog.run`), by a server that may answer in many ways
(`Prog.Execution`), or as one of many (`crowd`): there clients call operations, ask in any order,
and return, and between any two questions the environment may change the server.  What happens is
kept in a trace, newest first.

Every operation has a number, and the numbers in use are new and different
(`crowd_numbered`), so that the questions of one operation can be read off the trace
(`askedBy`).  What is true of every question of a program, by the answers before it, is then
true of every question in a crowd (`crowd_along`).
-/
namespace Resilience
open Function

/-- A program of a client: it has a result, or asks and goes on with the answer. -/
inductive Prog {Q : Type} (A : Q → Type) (R : Type) where
  | done (r : R)
  | ask (q : Q) (next : A q → Prog A R)

/-- A server: the answer to a question, and the data after it. -/
abbrev Serve {Q : Type} (A : Q → Type) (S : Type) := (q : Q) → S → A q × S

namespace Prog
variable {Q : Type} {A : Q → Type} {R S : Type}

/-- The program with the server to itself. -/
def run (serve : Serve A S) : Prog A R → S → R × S
  | done r, s => (r, s)
  | ask q next, s => run serve (next (serve q s).1) (serve q s).2

variable (serve : Serve A S)

@[simp] theorem run_done (r : R) (s : S) : (done r).run serve s = (r, s) := rfl

theorem run_ask (q : Q) (next : A q → Prog A R) (s : S) :
    (ask q next).run serve s = (next (serve q s).1).run serve (serve q s).2 :=
  rfl

/-- The program with a server that may answer in many ways: `answers q s a s'` says that it can
answer the question so, and has the data `s'` then.  The questions are kept with their
answers. -/
inductive Execution (answers : (q : Q) → S → A q → S → Prop) :
    Prog A R → S → List ((q : Q) × A q) → R → S → Prop where
  | done (r : R) (s : S) : Execution answers (.done r) s [] r s
  | ask {q : Q} {next : A q → Prog A R} {a : A q} {asked : List ((q : Q) × A q)} {r : R}
      {s s' s'' : S} : answers q s a s' → Execution answers (next a) s' asked r s'' →
      Execution answers (.ask q next) s (⟨q, a⟩ :: asked) r s''

/-- **A program that falls back**: it asks `quiet` questions, until an answer is `bad`; then it
asks one last question and returns what this is answered. -/
def FallsBack (quiet : Q → Prop) (bad : (q : Q) × A q → Prop) (last : Q) (result : A last → R) :
    Prog A R → Prop
  | done _ => True
  | ask q next => quiet q ∧ ∀ a, (bad ⟨q, a⟩ → next a = .ask last fun a => .done (result a)) ∧
      (¬ bad ⟨q, a⟩ → FallsBack quiet bad last result (next a))

/-- **The last question is the only one that counts**, if an answer was bad and quiet questions
change nothing. -/
theorem Execution.falls_back {answers : (q : Q) → S → A q → S → Prop} {prog : Prog A R}
    {asked : List ((q : Q) × A q)} {r : R} {s s' : S} (h : Execution answers prog s asked r s')
    {quiet : Q → Prop} {bad : (q : Q) × A q → Prop} {last : Q} {result : A last → R}
    (hprog : prog.FallsBack quiet bad last result) (hbad : ∃ qa ∈ asked, bad qa)
    (hquiet : ∀ q s a s', quiet q → answers q s a s' → s' = s) :
    ∃ a, answers last s a s' ∧ r = result a := by
  induction h with
  | done r s =>
    obtain ⟨_, hmem, _⟩ := hbad
    cases hmem
  | @ask q next a asked r s s₁ s' hanswer hrest ih =>
    obtain ⟨hq, hnext⟩ := hprog
    obtain rfl : s₁ = s := hquiet q s a s₁ hq hanswer
    by_cases hfirst : bad ⟨q, a⟩
    · rw [(hnext a).1 hfirst] at hrest
      cases hrest with
      | ask hlast hdone =>
        cases hdone
        exact ⟨_, hlast, rfl⟩
    · refine ih ((hnext a).2 hfirst) ?_
      obtain ⟨qa, hmem, hqa⟩ := hbad
      rcases List.mem_cons.mp hmem with rfl | hmem
      · exact absurd hqa hfirst
      · exact ⟨qa, hmem, hqa⟩

end Prog

/-! ## A crowd of clients -/

/-- What happens in a crowd: a client calls an operation, asks a question, asks the last
question of an operation that succeeds, or returns; or the environment changes the
server. -/
inductive CrowdEvent {Q : Type} (A : Q → Type) (C R E : Type) where
  | invoked (id : Nat) (c : C)
  | asked (id : Nat) (qa : (q : Q) × A q)
  | took (id : Nat) (c : C) (r : R)
  | returned (id : Nat) (r : R)
  | changed (e : E)

/-- An operation in progress: its number, what was called, and what is left to do. -/
structure Client {Q : Type} (A : Q → Type) (C R : Type) where
  id : Nat
  call : C
  prog : Prog A R

/-- A server with clients `P`. -/
structure Crowd {Q : Type} (A : Q → Type) (C R E S P : Type) where
  server : S
  client : P → Option (Client A C R) := fun _ => none
  next : Nat := 0
  trace : List (CrowdEvent A C R E) := []

/-- A move of a client or of the environment. -/
inductive CrowdMove (P C E : Type) where
  | invoke (p : P) (c : C)
  | ask (p : P)
  | leave (p : P)
  | change (e : E)

/-- The program of each operation, the server with its initial data, what the environment
can do to it, and which results are successes. -/
structure Service {Q : Type} (A : Q → Type) (C R E S : Type) where
  code : C → Prog A R
  serve : Serve A S
  init : S
  change : E → S → S
  succeeds : R → Bool

variable {Q : Type} {A : Q → Type} {C R E S P : Type}

/-- The record of a question: that it was asked, and that it was the last of an operation
that succeeds. -/
def Service.record (M : Service A C R E S) (x : Client A C R) (qa : (q : Q) × A q)
    (prog : Prog A R) : List (CrowdEvent A C R E) :=
  match prog with
  | .done r => if M.succeeds r then [.took x.id x.call r, .asked x.id qa] else [.asked x.id qa]
  | .ask _ _ => [.asked x.id qa]

/-- The crowd as a transition system. -/
def Service.crowd (M : Service A C R E S) (P : Type) [DecidableEq P] :
    System (Crowd A C R E S P) (CrowdMove P C E) where
  init := { server := M.init }
  step s
    | .invoke p c =>
      match s.client p with
      | some _ => none
      | none =>
        some { s with
          client := update s.client p (some ⟨s.next, c, M.code c⟩)
          next := s.next + 1
          trace := .invoked s.next c :: s.trace }
    | .ask p =>
      match s.client p with
      | some ⟨id, c, .ask q next⟩ =>
        let a := (M.serve q s.server).1
        some { s with
          server := (M.serve q s.server).2
          client := update s.client p (some ⟨id, c, next a⟩)
          trace := M.record ⟨id, c, next a⟩ ⟨q, a⟩ (next a) ++ s.trace }
      | _ => none
    | .leave p =>
      match s.client p with
      | some ⟨id, _, .done r⟩ =>
        some { s with
          client := update s.client p none
          trace := .returned id r :: s.trace }
      | _ => none
    | .change e => some { s with server := M.change e s.server, trace := .changed e :: s.trace }

section
variable [DecidableEq P] {M : Service A C R E S} {s s' : Crowd A C R E S P}

/-- **What a move is.** -/
theorem crowd_cases {a : CrowdMove P C E} (h : (M.crowd P).step s a = some s') :
    (∃ p c, a = .invoke p c ∧ s.client p = none ∧
      s' = { s with client := update s.client p (some ⟨s.next, c, M.code c⟩),
                    next := s.next + 1, trace := .invoked s.next c :: s.trace }) ∨
    (∃ p id c q next, a = .ask p ∧ s.client p = some ⟨id, c, .ask q next⟩ ∧
      s' = { s with server := (M.serve q s.server).2, client := update s.client p
                      (some ⟨id, c, next (M.serve q s.server).1⟩),
                    trace := M.record ⟨id, c, next (M.serve q s.server).1⟩
                      ⟨q, (M.serve q s.server).1⟩ (next (M.serve q s.server).1) ++ s.trace }) ∨
    (∃ p id c r, a = .leave p ∧ s.client p = some ⟨id, c, .done r⟩ ∧
      s' = { s with client := update s.client p none, trace := .returned id r :: s.trace }) ∨
    (∃ e, a = .change e ∧
      s' = { s with server := M.change e s.server, trace := .changed e :: s.trace }) := by
  cases a with
  | invoke p c =>
    simp only [Service.crowd] at h
    split at h
    · cases h
    · rename_i hclient
      exact .inl ⟨p, c, rfl, hclient, (Option.some.inj h).symm⟩
  | ask p =>
    simp only [Service.crowd] at h
    split at h
    · rename_i id c q next hclient
      exact .inr (.inl ⟨p, id, c, q, next, rfl, hclient, (Option.some.inj h).symm⟩)
    · cases h
  | leave p =>
    simp only [Service.crowd] at h
    split at h
    · rename_i id c r hclient
      exact .inr (.inr (.inl ⟨p, id, c, r, rfl, hclient, (Option.some.inj h).symm⟩))
    · cases h
  | change e => exact .inr (.inr (.inr ⟨e, rfl, (Option.some.inj h).symm⟩))

variable {f : P → Option (Client A C R)}

theorem update_eq_some {p p' : P} {x x' : Client A C R} (h : update f p (some x) p' = some x') :
    p' = p ∧ x' = x ∨ p' ≠ p ∧ f p' = some x' := by
  by_cases hne : p' = p
  · subst hne
    rw [update_self] at h
    exact .inl ⟨rfl, (Option.some.inj h).symm⟩
  · rw [update_of_ne hne] at h
    exact .inr ⟨hne, h⟩

theorem update_none_eq_some {p p' : P} {x' : Client A C R} (h : update f p none p' = some x') :
    p' ≠ p ∧ f p' = some x' := by
  by_cases hne : p' = p
  · subst hne
    rw [update_self] at h
    cases h
  · rw [update_of_ne hne] at h
    exact ⟨hne, h⟩

end

/-! ## Numbers -/

/-- The operation that an event is of. -/
def CrowdEvent.id : CrowdEvent A C R E → Option Nat
  | invoked id _ => some id
  | asked id _ => some id
  | took id _ _ => some id
  | returned id _ => some id
  | changed _ => none

/-- The numbers in use are new, and no two clients have the same. -/
structure Numbered (s : Crowd A C R E S P) : Prop where
  fresh : ∀ e ∈ s.trace, ∀ id ∈ e.id, id < s.next
  own : ∀ p x, s.client p = some x → x.id < s.next
  apart : ∀ p p' x x', s.client p = some x → s.client p' = some x' → x.id = x'.id → p = p'

variable {M : Service A C R E S} {e : CrowdEvent A C R E}

theorem id_of_mem_record {x : Client A C R} {qa : (q : Q) × A q} {prog : Prog A R}
    (h : e ∈ M.record x qa prog) : e.id = some x.id := by
  unfold Service.record at h
  split at h
  · split at h
    · rcases List.mem_cons.mp h with rfl | h
      · rfl
      · rw [List.mem_singleton.mp h]
        rfl
    · rw [List.mem_singleton.mp h]
      rfl
  · rw [List.mem_singleton.mp h]
    rfl

section
variable [DecidableEq P] {M : Service A C R E S} {s : Crowd A C R E S P}

theorem Numbered.advance (h : Numbered s) {p : P} {x₀ x : Client A C R}
    (hp : s.client p = some x₀) (hid : x.id = x₀.id) {server : S}
    {events : List (CrowdEvent A C R E)} (hevents : ∀ e ∈ events, e.id = some x₀.id) :
    Numbered { s with
      server := server
      client := update s.client p (some x)
      trace := events ++ s.trace } := by
  have hlt := h.own p x₀ hp
  refine ⟨fun e he id hmem => ?_, fun p' x' hp' => ?_, fun p₁ p₂ x₁ x₂ h₁ h₂ heq => ?_⟩
  · rcases List.mem_append.mp he with he | he
    · rw [hevents e he] at hmem
      cases hmem
      exact hlt
    · exact h.fresh e he id hmem
  · rcases update_eq_some hp' with ⟨-, rfl⟩ | ⟨-, hp'⟩
    · exact hid ▸ hlt
    · exact h.own p' x' hp'
  · obtain ⟨rfl, rfl⟩ | ⟨hne₁, hp₁⟩ := update_eq_some h₁ <;>
      obtain ⟨rfl, rfl⟩ | ⟨hne₂, hp₂⟩ := update_eq_some h₂
    · rfl
    · exact absurd (h.apart p₂ p₁ x₂ x₀ hp₂ hp (heq.symm.trans hid)) hne₂
    · exact absurd (h.apart p₁ p₂ x₁ x₀ hp₁ hp (heq.trans hid)) hne₁
    · exact h.apart p₁ p₂ x₁ x₂ hp₁ hp₂ heq

theorem crowd_numbered {ok : Crowd A C R E S P → CrowdMove P C E → Prop}
    (hs : (M.crowd P).Reachable ok s) : Numbered s := by
  refine hs.invariant (I := Numbered) ?_ ?_
  · refine ⟨?_, ?_, ?_⟩
    · intro e he
      cases he
    · intro p x hp
      cases hp
    · intro p p' x x' hp
      cases hp
  · intro s a s' _ h _ hstep
    obtain ⟨p, c, -, -, rfl⟩ | ⟨p, id, c, q, next, -, hp, rfl⟩ | ⟨p, id, c, r, -, hp, rfl⟩ |
      ⟨e, -, rfl⟩ := crowd_cases hstep
    · refine ⟨fun e he id hmem => ?_, fun p' x' hp' => ?_, fun p₁ p₂ x₁ x₂ h₁ h₂ heq => ?_⟩
      · rcases List.mem_cons.mp he with rfl | he
        · cases hmem
          exact Nat.lt_succ_self _
        · exact Nat.lt_succ_of_lt (h.fresh e he id hmem)
      · rcases update_eq_some hp' with ⟨-, rfl⟩ | ⟨-, hp'⟩
        · exact Nat.lt_succ_self _
        · exact Nat.lt_succ_of_lt (h.own p' x' hp')
      · obtain ⟨rfl, rfl⟩ | ⟨-, hp₁⟩ := update_eq_some h₁ <;>
          obtain ⟨rfl, rfl⟩ | ⟨-, hp₂⟩ := update_eq_some h₂
        · rfl
        · exact absurd heq.symm (h.own p₂ x₂ hp₂).ne
        · exact absurd heq (h.own p₁ x₁ hp₁).ne
        · exact h.apart p₁ p₂ x₁ x₂ hp₁ hp₂ heq
    · exact h.advance (x := ⟨id, c, next (M.serve q s.server).1⟩) hp rfl
        fun e he => id_of_mem_record he
    · refine ⟨fun e he id' hmem => ?_, fun p' x' hp' => ?_, fun p₁ p₂ x₁ x₂ h₁ h₂ heq => ?_⟩
      · rcases List.mem_cons.mp he with rfl | he
        · cases hmem
          exact h.own p _ hp
        · exact h.fresh e he id' hmem
      · exact h.own p' x' (update_none_eq_some hp').2
      · exact h.apart p₁ p₂ x₁ x₂ (update_none_eq_some h₁).2 (update_none_eq_some h₂).2 heq
    · refine ⟨fun e' he' id hmem => ?_, h.own, h.apart⟩
      rcases List.mem_cons.mp he' with rfl | he'
      · cases hmem
      · exact h.fresh e' he' id hmem

end

/-! ## The questions of one operation -/

/-- The question of an operation in an event, with its answer. -/
def CrowdEvent.askedBy (id : Nat) : CrowdEvent A C R E → Option ((q : Q) × A q)
  | asked id' qa => if id' = id then some qa else none
  | _ => none

/-- The questions of an operation so far, with their answers, newest first. -/
def askedBy (id : Nat) (trace : List (CrowdEvent A C R E)) : List ((q : Q) × A q) :=
  trace.filterMap (CrowdEvent.askedBy id)

/-- Every question of a program meets `ok`, given the questions before it and their answers,
newest first. -/
def Along (ok : List ((q : Q) × A q) → Q → Prop) : List ((q : Q) × A q) → Prog A R → Prop
  | _, .done _ => True
  | past, .ask q next => ok past q ∧ ∀ a, Along ok (⟨q, a⟩ :: past) (next a)

theorem CrowdEvent.askedBy_of_ne {id : Nat} (h : e.id ≠ some id) : e.askedBy id = none := by
  cases e with
  | asked id' qa => exact if_neg fun heq => h (congrArg some heq)
  | _ => rfl

theorem askedBy_append_of_ne {id : Nat} {events : List (CrowdEvent A C R E)}
    (h : ∀ e ∈ events, e.id ≠ some id) (trace : List (CrowdEvent A C R E)) :
    askedBy id (events ++ trace) = askedBy id trace := by
  rw [askedBy, List.filterMap_append,
    List.filterMap_eq_nil_iff.mpr fun e he => CrowdEvent.askedBy_of_ne (h e he)]
  rfl

theorem askedBy_record (x : Client A C R) (qa : (q : Q) × A q) (prog : Prog A R)
    (trace : List (CrowdEvent A C R E)) :
    askedBy x.id (M.record x qa prog ++ trace) = qa :: askedBy x.id trace := by
  have hrecord : (M.record x qa prog).filterMap (CrowdEvent.askedBy x.id) = [qa] := by
    have hself : (CrowdEvent.asked x.id qa : CrowdEvent A C R E).askedBy x.id = some qa := if_pos rfl
    unfold Service.record
    split
    · split
      · rw [List.filterMap_cons_none rfl, List.filterMap_cons_some hself, List.filterMap_nil]
      · rw [List.filterMap_cons_some hself, List.filterMap_nil]
    · rw [List.filterMap_cons_some hself, List.filterMap_nil]
  rw [askedBy, List.filterMap_append, hrecord]
  rfl

/-- **The questions in a crowd** are those of the programs. -/
theorem crowd_along [DecidableEq P] {ok : Crowd A C R E S P → CrowdMove P C E → Prop}
    {s : Crowd A C R E S P} {K : C → List ((q : Q) × A q) → Q → Prop}
    (hcode : ∀ c, Along (K c) [] (M.code c)) (hs : (M.crowd P).Reachable ok s) :
    ∀ p x, s.client p = some x → Along (K x.call) (askedBy x.id s.trace) x.prog := by
  refine hs.invariant
    (I := fun s => ∀ p x, s.client p = some x → Along (K x.call) (askedBy x.id s.trace) x.prog) ?_ ?_
  · intro p x hp
    cases hp
  · intro s a s' hr h _ hstep p' x' hp'
    have hnum := crowd_numbered hr
    obtain ⟨p, c, -, -, rfl⟩ | ⟨p, id, c, q, next, -, hp, rfl⟩ | ⟨p, id, c, r, -, hp, rfl⟩ |
      ⟨e, -, rfl⟩ := crowd_cases hstep
    · have hsame : ∀ id, askedBy id (.invoked s.next c :: s.trace) = askedBy id s.trace :=
        fun _ => rfl
      rcases update_eq_some hp' with ⟨-, rfl⟩ | ⟨-, hp'⟩
      · have hnone : askedBy s.next s.trace = [] := by
          refine List.filterMap_eq_nil_iff.mpr fun e he => CrowdEvent.askedBy_of_ne fun hid => ?_
          exact Nat.lt_irrefl _ (hnum.fresh e he s.next hid)
        rw [hsame, hnone]
        exact hcode c
      · exact h p' x' hp'
    · rcases update_eq_some hp' with ⟨-, rfl⟩ | ⟨hne, hp'⟩
      · rw [askedBy_record]
        exact (h p _ hp).2 _
      · rw [askedBy_append_of_ne]
        · exact h p' x' hp'
        · intro e he hid
          have heq := (id_of_mem_record he).symm.trans hid
          exact hne (hnum.apart p' p x' _ hp' hp (Option.some.inj heq).symm)
    · exact h p' x' (update_none_eq_some hp').2
    · exact h p' x' hp'

end Resilience
