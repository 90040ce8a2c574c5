import Mathlib

/-! # Transactions on a store

Programs of statements that run inside one transaction of a database connection. A statement works
on the transaction's own copy of the store and may fail instead, as the list of faults decides.
`transaction` is `BEGIN`, the program, and `COMMIT` or `ROLLBACK`; whatever fails on the way leaves
the store as it was.

* `Sql.Lawful`: a program that meets no fault does what it does without faults.
* `transaction_cases`: a transaction fails with a fault, or does what it does without faults. -/

namespace BetterHindsight
set_option autoImplicit false

universe u

/-- A program on a working copy of the store `σ`. A fault `some e` makes the statement that meets
it raise `e`; no fault is left for the statements after the end of the list. -/
structure Sql (σ ε : Type) (α : Type) where
  run : σ → List (Option ε) → Except ε (α × σ × List (Option ε))

namespace Sql
variable {σ ε α β : Type}

instance : Monad (Sql σ ε) where
  pure a := ⟨fun s fs => .ok (a, s, fs)⟩
  bind p k := ⟨fun s fs =>
    match p.run s fs with
    | .error e => .error e
    | .ok (a, s', fs') => (k a).run s' fs'⟩

/-- An exception that the program itself raises. -/
def raise (e : ε) : Sql σ ε α := ⟨fun _ _ => .error e⟩

/-- One statement: reads the working copy and replaces it. -/
def statement (f : σ → Except ε (α × σ)) : Sql σ ε α where
  run s fs :=
    match fs.head?.join with
    | some e => .error e
    | none =>
      match f s with
      | .error e => .error e
      | .ok (a, s') => .ok (a, s', fs.tail)

/-- A `SELECT`. -/
def query (f : σ → α) : Sql σ ε α := statement fun s => .ok (f s, s)

/-- An `UPDATE` or `DELETE` and its row count. -/
def update (f : σ → α × σ) : Sql σ ε α := statement fun s => .ok (f s)

/-- `f` for every item of the list, as `for` does. -/
def forEach {γ : Type u} (f : γ → α → Sql σ ε α) : List γ → α → Sql σ ε α
  | [], acc => Pure.pure acc
  | x :: xs, acc => do forEach f xs (← f x acc)

/-! ## Running -/

@[simp] theorem run_pure (a : α) (s : σ) (fs : List (Option ε)) :
    (Pure.pure a : Sql σ ε α).run s fs = .ok (a, s, fs) := rfl

@[simp] theorem run_raise (e : ε) (s : σ) (fs : List (Option ε)) :
    (raise e : Sql σ ε α).run s fs = .error e := rfl

@[simp] theorem run_bind (p : Sql σ ε α) (k : α → Sql σ ε β) (s : σ) (fs : List (Option ε)) :
    (p >>= k).run s fs =
      match p.run s fs with
      | .error e => .error e
      | .ok (a, s', fs') => (k a).run s' fs' := rfl

@[simp] theorem run_query_nil (f : σ → α) (s : σ) :
    (query f : Sql σ ε α).run s [] = .ok (f s, s, []) := rfl

@[simp] theorem run_update_nil (f : σ → α × σ) (s : σ) :
    (update f : Sql σ ε α).run s [] = .ok ((f s).1, (f s).2, []) := rfl

/-! ## Programs that meet no fault -/

/-- The program raises a fault of the list, or does what it does without faults and leaves some
of the faults over. -/
def Lawful (p : Sql σ ε α) : Prop :=
  ∀ s fs, (∃ e, some e ∈ fs ∧ p.run s fs = .error e) ∨
    (∃ e, p.run s fs = .error e ∧ p.run s [] = .error e) ∨
    ∃ a s' fs', p.run s fs = .ok (a, s', fs') ∧ p.run s [] = .ok (a, s', []) ∧ fs' ⊆ fs

theorem Lawful.pure (a : α) : (Pure.pure a : Sql σ ε α).Lawful :=
  fun s fs => .inr (.inr ⟨a, s, fs, rfl, rfl, fun _ h => h⟩)

theorem Lawful.raise (e : ε) : (raise e : Sql σ ε α).Lawful :=
  fun _ _ => .inr (.inl ⟨e, rfl, rfl⟩)

theorem Lawful.statement (f : σ → Except ε (α × σ)) : (statement f).Lawful := by
  intro s fs
  cases hd : fs.head?.join with
  | some e =>
    have hmem : some e ∈ fs := by
      cases fs with
      | nil => simp at hd
      | cons x fs =>
        simp only [List.head?_cons, Option.join_some] at hd
        rw [hd]
        exact List.mem_cons_self
    exact .inl ⟨e, hmem, by simp only [Sql.statement, hd]⟩
  | none =>
    cases hf : f s with
    | error e => exact .inr (.inl ⟨e, by simp only [Sql.statement, hd, hf], by
        simp [Sql.statement, hf]⟩)
    | ok r => exact .inr (.inr ⟨r.1, r.2, fs.tail, by simp only [Sql.statement, hd, hf], by
        simp [Sql.statement, hf], fun _ => List.mem_of_mem_tail⟩)

theorem Lawful.query (f : σ → α) : (query f : Sql σ ε α).Lawful := Lawful.statement _

theorem Lawful.update (f : σ → α × σ) : (update f : Sql σ ε α).Lawful := Lawful.statement _

theorem Lawful.bind {p : Sql σ ε α} {k : α → Sql σ ε β} (hp : p.Lawful)
    (hk : ∀ a, (k a).Lawful) : (p >>= k).Lawful := by
  intro s fs
  simp only [run_bind]
  rcases hp s fs with ⟨e, he, h⟩ | ⟨e, h, h0⟩ | ⟨a, s', fs', h, h0, hsub⟩
  · exact .inl ⟨e, he, by rw [h]⟩
  · exact .inr (.inl ⟨e, by rw [h], by rw [h0]⟩)
  · rw [h, h0]
    rcases hk a s' fs' with ⟨e, he, h⟩ | ⟨e, h, h0⟩ | ⟨b, s'', fs'', h, h0, hsub'⟩
    · exact .inl ⟨e, hsub he, h⟩
    · exact .inr (.inl ⟨e, h, h0⟩)
    · exact .inr (.inr ⟨b, s'', fs'', h, h0, fun _ hx => hsub (hsub' hx)⟩)

theorem Lawful.ite {c : Prop} [Decidable c] {p q : Sql σ ε α} (hp : p.Lawful) (hq : q.Lawful) :
    (if c then p else q).Lawful := by
  split
  · exact hp
  · exact hq

theorem Lawful.forEach {γ : Type u} {f : γ → α → Sql σ ε α} (hf : ∀ x a, (f x a).Lawful)
    (xs : List γ) (acc : α) : (Sql.forEach f xs acc).Lawful := by
  induction xs generalizing acc with
  | nil => exact Lawful.pure acc
  | cons x xs ih => exact Lawful.bind (hf x acc) ih

end Sql

/-! ## One transaction -/

section Transaction
variable {σ ε α : Type}

/-- `BEGIN IMMEDIATE`, `COMMIT` or `ROLLBACK`, which change no row. -/
def bracket : Sql σ ε Unit := Sql.update fun s => ((), s)

/-- The program between `BEGIN IMMEDIATE` and `COMMIT` where `keep` holds of its result, or
`ROLLBACK` where it does not. On an exception the store is rolled back. -/
def transaction (program : Sql σ ε α) (keep : α → Bool) (s : σ) (faults : List (Option ε)) :
    Except ε α × σ :=
  match (do bracket; let a ← program; bracket; return a : Sql σ ε α).run s faults with
  | .error e => (.error e, s)
  | .ok (a, s', _) => (.ok a, if keep a then s' else s)

/-- A transaction raises one of the faults and changes nothing, or does what it does without
faults. -/
theorem transaction_cases {program : Sql σ ε α} (hp : program.Lawful) (keep : α → Bool) (s : σ)
    (faults : List (Option ε)) :
    (∃ e, some e ∈ faults ∧ transaction program keep s faults = (.error e, s)) ∨
      transaction program keep s faults = transaction program keep s [] := by
  have hw : (do bracket; let a ← program; bracket; return a : Sql σ ε α).Lawful :=
    Sql.Lawful.bind (Sql.Lawful.update _) fun _ => Sql.Lawful.bind hp fun a =>
      Sql.Lawful.bind (Sql.Lawful.update _) fun _ => Sql.Lawful.pure a
  unfold transaction
  rcases hw s faults with ⟨e, he, h⟩ | ⟨e, h, h0⟩ | ⟨a, s', fs', h, h0, -⟩
  · exact .inl ⟨e, he, by rw [h]⟩
  · exact .inr (by rw [h, h0])
  · exact .inr (by rw [h, h0])

/-- Without faults a transaction keeps or drops what the program does. -/
theorem transaction_nil {program : Sql σ ε α} (hp : program.Lawful) (keep : α → Bool) (s : σ) :
    transaction program keep s [] =
      match program.run s [] with
      | .error e => (.error e, s)
      | .ok (a, s', _) => (.ok a, if keep a then s' else s) := by
  unfold transaction
  simp only [Sql.run_bind, bracket, Sql.run_update_nil, Sql.run_pure]
  rcases hp s [] with ⟨e, he, -⟩ | ⟨e, h, -⟩ | ⟨a, s', fs', h, -, hsub⟩
  · simp at he
  · simp only [h]
  · obtain rfl : fs' = [] := List.subset_nil.mp hsub
    simp only [h, Sql.run_update_nil]

end Transaction

end BetterHindsight
