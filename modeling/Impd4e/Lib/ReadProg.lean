import Mathlib.Tactic.Common
import Mathlib.Data.List.Basic

/-! # Programs that read a memory cell by cell

    A `ReadProg β α` is the tree of a computation whose only effect is to read
    cells of a memory: it returns, it gets stuck, or it reads one address and
    goes on with what it found.  A memory is a partial map from addresses to
    cells, and reading an unmapped address is a fault.

    The tree knows its own reads, so one run has a TRACE (the addresses read,
    in order, the faulting one included), and the three facts everything else
    rests on are proved once for all programs:

    * `run_congr`: two memories that agree on the trace give the same run;
    * `Triple`: a precondition on the memory bounds the trace and describes
      the result, with the usual rules;
    * `run_rebase`: reading relative to a moved base pointer is running over
      the moved memory. -/

/-- Why a run ends without a result. -/
inductive Fault where
  /-- an address was read that no cell is mapped at -/
  | unmapped
  /-- the program itself gave up -/
  | stuck
  deriving DecidableEq, Repr

/-- A computation that reads cells of type `β` and returns an `α`. -/
inductive ReadProg (β α : Type) where
  | ret (a : α)
  | stuck
  | read (i : Nat) (k : β → ReadProg β α)

namespace ReadProg

variable {β α γ δ : Type}

/-- Sequencing: graft `k` onto every result. -/
def bind : ReadProg β α → (α → ReadProg β γ) → ReadProg β γ
  | .ret a, k => k a
  | .stuck, _ => .stuck
  | .read i r, k => .read i (fun b => bind (r b) k)

instance : Monad (ReadProg β) where
  pure := .ret
  bind := bind

@[simp] theorem bind_eq (p : ReadProg β α) (k : α → ReadProg β γ) :
    p >>= k = p.bind k := rfl
@[simp] theorem ret_bind (a : α) (k : α → ReadProg β γ) :
    (ret a : ReadProg β α).bind k = k a := rfl
@[simp] theorem read_bind (i : Nat) (r : β → ReadProg β α) (k : α → ReadProg β γ) :
    (read i r).bind k = .read i (fun b => (r b).bind k) := rfl

theorem bind_ret (p : ReadProg β α) : p.bind .ret = p := by
  induction p with
  | ret a => rfl
  | stuck => rfl
  | read i r ih => exact congrArg (ReadProg.read i) (funext ih)

theorem bind_assoc (p : ReadProg β α) (k : α → ReadProg β γ) (l : γ → ReadProg β δ) :
    (p.bind k).bind l = p.bind (fun a => (k a).bind l) := by
  induction p with
  | ret a => rfl
  | stuck => rfl
  | read i r ih => exact congrArg (ReadProg.read i) (funext ih)

instance : LawfulMonad (ReadProg β) :=
  LawfulMonad.mk' (ReadProg β) bind_ret (fun _ _ => rfl) bind_assoc

/-! ## Runs and traces -/

/-- Run a program over a memory. -/
def run (m : Nat → Option β) : ReadProg β α → Except Fault α
  | .ret a => .ok a
  | .stuck => .error .stuck
  | .read i k =>
      match m i with
      | some b => run m (k b)
      | none => .error .unmapped

/-- The addresses a run reads, in order, the faulting one included. -/
def trace (m : Nat → Option β) : ReadProg β α → List Nat
  | .ret _ => []
  | .stuck => []
  | .read i k =>
      i :: match m i with
        | some b => trace m (k b)
        | none => []

section Run

variable (m : Nat → Option β)

@[simp] theorem run_ret (a : α) : run m (.ret a) = .ok a := rfl
@[simp] theorem run_stuck : run m (.stuck : ReadProg β α) = .error .stuck := rfl
@[simp] theorem trace_ret (a : α) : trace m (.ret a) = [] := rfl
@[simp] theorem trace_stuck : trace m (.stuck : ReadProg β α) = [] := rfl

theorem run_read {i : Nat} {b : β} (h : m i = some b) (k : β → ReadProg β α) :
    run m (.read i k) = run m (k b) := by
  rw [run, h]

theorem run_read_none {i : Nat} (h : m i = none) (k : β → ReadProg β α) :
    run m (.read i k) = .error .unmapped := by
  rw [run, h]

theorem trace_read {i : Nat} {b : β} (h : m i = some b) (k : β → ReadProg β α) :
    trace m (.read i k) = i :: trace m (k b) := by
  rw [trace, h]

theorem trace_read_none {i : Nat} (h : m i = none) (k : β → ReadProg β α) :
    trace m (.read i k) = [i] := by
  rw [trace, h]

/-- A sequence runs its second half on the first half's result. -/
theorem run_bind (p : ReadProg β α) (k : α → ReadProg β γ) :
    run m (p.bind k) = (run m p).bind (fun a => run m (k a)) := by
  induction p with
  | ret a => rfl
  | stuck => rfl
  | read i r ih =>
      rw [read_bind]
      cases h : m i with
      | none => rw [run_read_none m h, run_read_none m h]; rfl
      | some b => rw [run_read m h, run_read m h]; exact ih b

theorem run_bind_ok {p : ReadProg β α} {a : α} (h : run m p = .ok a)
    (k : α → ReadProg β γ) : run m (p.bind k) = run m (k a) := by
  rw [run_bind, h]; rfl

theorem run_bind_error {p : ReadProg β α} {f : Fault} (h : run m p = .error f)
    (k : α → ReadProg β γ) : run m (p.bind k) = .error f := by
  rw [run_bind, h]; rfl

/-- Changing every result changes the result of the run. -/
theorem run_map (p : ReadProg β α) (g : α → γ) :
    (run m p).map g = run m (p.bind (fun a => .ret (g a))) := by
  rw [run_bind]
  cases run m p with
  | error f => rfl
  | ok a => rfl

/-- A sequence that returns does so through a result of its first half. -/
theorem run_bind_eq_ok {p : ReadProg β α} {k : α → ReadProg β γ} {c : γ} :
    run m (p.bind k) = .ok c ↔ ∃ a, run m p = .ok a ∧ run m (k a) = .ok c := by
  rw [run_bind]
  cases h : run m p with
  | error f => simp [Except.bind]
  | ok a => simp [Except.bind]

theorem trace_bind_ok {p : ReadProg β α} {a : α} (h : run m p = .ok a)
    (k : α → ReadProg β γ) :
    trace m (p.bind k) = trace m p ++ trace m (k a) := by
  induction p with
  | ret a' =>
      have ha : a' = a := Except.ok.inj h
      rw [ha]; rfl
  | stuck => exact nomatch h
  | read i r ih =>
      rw [read_bind]
      cases hi : m i with
      | none => rw [run_read_none m hi] at h; exact nomatch h
      | some b =>
          rw [run_read m hi] at h
          rw [trace_read m hi, trace_read m hi, ih b h, List.cons_append]

theorem trace_bind_error {p : ReadProg β α} {f : Fault} (h : run m p = .error f)
    (k : α → ReadProg β γ) : trace m (p.bind k) = trace m p := by
  induction p with
  | ret a => exact nomatch h
  | stuck => rfl
  | read i r ih =>
      rw [read_bind]
      cases hi : m i with
      | none => rw [trace_read_none m hi, trace_read_none m hi]
      | some b =>
          rw [run_read m hi] at h
          rw [trace_read m hi, trace_read m hi, ih b h]

end Run

/-! ## Memories that agree on the trace -/

section Agree

variable {m m' : Nat → Option β}

/-- **LOCALITY**: a run depends on the memory only through its trace. -/
theorem run_congr {p : ReadProg β α} (h : ∀ i ∈ trace m p, m' i = m i) :
    run m' p = run m p := by
  induction p with
  | ret a => rfl
  | stuck => rfl
  | read i r ih =>
      cases hi : m i with
      | none =>
          rw [trace_read_none m hi] at h
          have h' : m' i = none := (h i (List.mem_cons_self ..)).trans hi
          rw [run_read_none m hi, run_read_none m' h']
      | some b =>
          rw [trace_read m hi] at h
          have h' : m' i = some b := (h i (List.mem_cons_self ..)).trans hi
          rw [run_read m hi, run_read m' h']
          exact ih b (fun j hj => h j (List.mem_cons_of_mem _ hj))

/-- The trace, too, depends on the memory only through itself. -/
theorem trace_congr {p : ReadProg β α} (h : ∀ i ∈ trace m p, m' i = m i) :
    trace m' p = trace m p := by
  induction p with
  | ret a => rfl
  | stuck => rfl
  | read i r ih =>
      cases hi : m i with
      | none =>
          rw [trace_read_none m hi] at h ⊢
          have h' : m' i = none := (h i (List.mem_cons_self ..)).trans hi
          rw [trace_read_none m' h']
      | some b =>
          rw [trace_read m hi] at h ⊢
          have h' : m' i = some b := (h i (List.mem_cons_self ..)).trans hi
          rw [trace_read m' h', ih b (fun j hj => h j (List.mem_cons_of_mem _ hj))]

/-- A run faults on a read exactly when its trace leaves the mapped cells. -/
theorem run_unmapped_iff {p : ReadProg β α} :
    run m p = .error .unmapped ↔ ∃ i ∈ trace m p, m i = none := by
  induction p with
  | ret a => simp
  | stuck => simp
  | read i r ih =>
      cases hi : m i with
      | none => simp [run_read_none m hi, trace_read_none m hi, hi]
      | some b => simp [run_read m hi, trace_read m hi, hi, ih b]

end Agree

/-! ## Preconditions and postconditions

    `Triple m P p Q`: over the memory `m`, the program reads only addresses
    satisfying `P`, and whatever it returns satisfies `Q`. -/

/-- Every address read satisfies `P`, every result satisfies `Q`. -/
def Triple (m : Nat → Option β) (P : Nat → Prop) (p : ReadProg β α) (Q : α → Prop) :
    Prop :=
  (∀ i ∈ trace m p, P i) ∧ ∀ a, run m p = .ok a → Q a

section Rules

variable {m m' : Nat → Option β} {P : Nat → Prop}

theorem Triple.ret {a : α} {Q : α → Prop} (h : Q a) : Triple m P (.ret a) Q :=
  ⟨by simp, by rintro b ⟨⟩; exact h⟩

theorem Triple.stuck {Q : α → Prop} : Triple m P (.stuck : ReadProg β α) Q :=
  ⟨by simp, by rintro b ⟨⟩⟩

theorem Triple.read {i : Nat} {k : β → ReadProg β α} {Q : α → Prop} (hi : P i)
    (hk : ∀ b, m i = some b → Triple m P (k b) Q) : Triple m P (.read i k) Q := by
  cases h : m i with
  | none =>
      refine ⟨?_, ?_⟩
      · rw [trace_read_none m h]
        intro j hj
        rw [List.mem_singleton.mp hj]
        exact hi
      · rw [run_read_none m h]
        exact fun a ha => nomatch ha
  | some b =>
      obtain ⟨ht, hr⟩ := hk b h
      refine ⟨?_, ?_⟩
      · rw [trace_read m h]
        intro j hj
        rcases List.mem_cons.mp hj with heq | hmem
        · rw [heq]; exact hi
        · exact ht j hmem
      · rw [run_read m h]
        exact hr

/-- The rule of sequencing. -/
theorem Triple.bind {p : ReadProg β α} {k : α → ReadProg β γ} {R : α → Prop}
    {Q : γ → Prop} (hp : Triple m P p R) (hk : ∀ a, R a → Triple m P (k a) Q) :
    Triple m P (p.bind k) Q := by
  cases h : run m p with
  | error f =>
      refine ⟨?_, ?_⟩
      · rw [trace_bind_error m h]; exact hp.1
      · rw [run_bind_error m h]; exact fun a ha => nomatch ha
  | ok a =>
      obtain ⟨ht, hr⟩ := hk a (hp.2 a h)
      refine ⟨?_, ?_⟩
      · rw [trace_bind_ok m h]
        intro i hi
        rcases List.mem_append.mp hi with hi | hi
        · exact hp.1 i hi
        · exact ht i hi
      · rw [run_bind_ok m h]; exact hr

/-- The rule of consequence. -/
theorem Triple.mono {p : ReadProg β α} {P' : Nat → Prop} {Q Q' : α → Prop}
    (h : Triple m P p Q) (hP : ∀ i, P i → P' i) (hQ : ∀ a, Q a → Q' a) :
    Triple m P' p Q' :=
  ⟨fun i hi => hP i (h.1 i hi), fun a ha => hQ a (h.2 a ha)⟩

/-- **NONINTERFERENCE**: cells outside the permitted addresses cannot reach
    the result. -/
theorem Triple.run_eq {p : ReadProg β α} {Q : α → Prop} (h : Triple m P p Q)
    (hagree : ∀ i, P i → m' i = m i) : run m' p = run m p :=
  run_congr (fun i hi => hagree i (h.1 i hi))

end Rules

/-! ## Reading relative to a base -/

/-- Move every read up by `k`: the program with its base pointer at `k`. -/
def rebase (k : Nat) : ReadProg β α → ReadProg β α
  | .ret a => .ret a
  | .stuck => .stuck
  | .read i r => .read (k + i) (fun b => rebase k (r b))

/-- Running at a base is running over the moved memory. -/
theorem run_rebase (m : Nat → Option β) (k : Nat) (p : ReadProg β α) :
    run m (rebase k p) = run (fun i => m (k + i)) p := by
  induction p with
  | ret a => rfl
  | stuck => rfl
  | read i r ih =>
      show run m (.read (k + i) fun b => rebase k (r b)) = _
      cases h : m (k + i) with
      | none => rw [run_read_none m h, run_read_none (fun i => m (k + i)) h]
      | some b => rw [run_read m h, run_read (fun i => m (k + i)) h, ih b]

/-! ## Blocks of cells -/

/-- Read one cell. -/
def cell (i : Nat) : ReadProg β β := .read i .ret

/-- Read the `n` cells from `i` on. -/
def block (i : Nat) : Nat → ReadProg β (List β)
  | 0 => .ret []
  | n + 1 => .read i (fun b => (block (i + 1) n).bind (fun bs => .ret (b :: bs)))

/-- A block reads the addresses it covers and returns that many cells. -/
theorem block_triple {m : Nat → Option β} {P : Nat → Prop} :
    ∀ (n i : Nat), (∀ j, i ≤ j → j < i + n → P j) →
      Triple m P (block i n) (fun bs => bs.length = n) := by
  intro n
  induction n with
  | zero => intro i _; exact Triple.ret rfl
  | succ n ih =>
      intro i hP
      refine Triple.read (hP i (Nat.le_refl _) (by omega)) (fun b _ => ?_)
      refine Triple.bind (ih (i + 1) (fun j h1 h2 => hP j (by omega) (by omega))) ?_
      intro bs hbs
      exact Triple.ret (by rw [List.length_cons, hbs])

/-- Reading never gives up by itself. -/
theorem block_not_stuck {m : Nat → Option β} :
    ∀ n i : Nat, run m (block i n) ≠ .error .stuck := by
  intro n
  induction n with
  | zero => exact fun _ h => nomatch h
  | succ n ih =>
      intro i
      rw [block]
      cases hm : m i with
      | none => rw [run_read_none m hm]; exact fun h => nomatch h
      | some b =>
          rw [run_read m hm]
          cases hb : run m (block (i + 1) n) with
          | error f =>
              rw [run_bind_error m hb]
              intro h
              exact ih (i + 1) (hb.trans h)
          | ok bs => rw [run_bind_ok m hb]; exact fun h => nomatch h

/-- Read several blocks, each given by its address and its number of cells,
    and join them. -/
def blocks : List (Nat × Nat) → ReadProg β (List β)
  | [] => .ret []
  | p :: ps => (block p.1 p.2).bind (fun bs => (blocks ps).bind (fun cs => .ret (bs ++ cs)))

/-- The number of cells a list of blocks has. -/
def extent : List (Nat × Nat) → Nat
  | [] => 0
  | p :: ps => p.2 + extent ps

@[simp] theorem extent_nil : extent [] = 0 := rfl
@[simp] theorem extent_cons (p : Nat × Nat) (ps : List (Nat × Nat)) :
    extent (p :: ps) = p.2 + extent ps := rfl
@[simp] theorem extent_append (ps qs : List (Nat × Nat)) :
    extent (ps ++ qs) = extent ps + extent qs := by
  induction ps with
  | nil => exact (Nat.zero_add _).symm
  | cons p ps ih => rw [List.cons_append, extent_cons, extent_cons, ih, Nat.add_assoc]

theorem blocks_append (ps qs : List (Nat × Nat)) :
    (blocks (ps ++ qs) : ReadProg β (List β))
      = (blocks ps).bind (fun bs => (blocks qs).bind (fun cs => .ret (bs ++ cs))) := by
  induction ps with
  | nil => exact (bind_ret _).symm
  | cons p ps ih =>
      show (block p.1 p.2).bind (fun bs => (blocks (ps ++ qs)).bind _) = ReadProg.bind _ _
      rw [ih]
      show _ = ((block p.1 p.2).bind _).bind _
      rw [bind_assoc]
      refine congrArg _ (funext fun bs => ?_)
      rw [bind_assoc, bind_assoc]
      refine congrArg _ (funext fun cs => ?_)
      rw [bind_assoc, ret_bind]
      refine congrArg _ (funext fun ds => ?_)
      rw [ret_bind, List.append_assoc]

/-- Blocks read the addresses they cover and return as many cells as they have. -/
theorem blocks_triple {m : Nat → Option β} {P : Nat → Prop} :
    ∀ ps : List (Nat × Nat),
      (∀ p ∈ ps, ∀ j, p.1 ≤ j → j < p.1 + p.2 → P j) →
      Triple m P (blocks ps) (fun bs => bs.length = extent ps) := by
  intro ps
  induction ps with
  | nil => exact fun _ => Triple.ret rfl
  | cons p ps ih =>
      intro hP
      refine Triple.bind (block_triple p.2 p.1 (hP p (List.mem_cons_self ..))) ?_
      intro bs hbs
      refine Triple.bind (ih (fun q hq => hP q (List.mem_cons_of_mem _ hq))) ?_
      intro cs hcs
      exact Triple.ret (by rw [List.length_append, hbs, hcs, extent_cons])

theorem blocks_not_stuck {m : Nat → Option β} :
    ∀ ps : List (Nat × Nat), run m (blocks ps) ≠ .error .stuck := by
  intro ps
  induction ps with
  | nil => exact fun h => nomatch h
  | cons p ps ih =>
      show run m ((block p.1 p.2).bind _) ≠ _
      cases hb : run m (block p.1 p.2) with
      | error f =>
          rw [run_bind_error m hb]
          intro h
          exact block_not_stuck p.2 p.1 (hb.trans h)
      | ok bs =>
          rw [run_bind_ok m hb]
          cases hc : run m (blocks ps) with
          | error f =>
              rw [run_bind_error m hc]
              intro h
              exact ih (hc.trans h)
          | ok cs =>
              rw [run_bind_ok m hc]
              exact fun h => nomatch h

/-! ## Memories given by lists -/

/-- The memory whose mapped cells are those of a list. -/
def ofList (l : List β) : Nat → Option β := fun i => l[i]?

@[simp] theorem ofList_apply (l : List β) (i : Nat) : ofList l i = l[i]? := rfl

/-- A block inside the list is the corresponding slice. -/
theorem run_block (l : List β) :
    ∀ (n i : Nat), i + n ≤ l.length →
      run (ofList l) (block i n) = .ok ((l.drop i).take n) := by
  intro n
  induction n with
  | zero => intro i _; rfl
  | succ n ih =>
      intro i hi
      have hlt : i < l.length := by omega
      have hm : ofList l i = some l[i] := List.getElem?_eq_getElem hlt
      rw [block, run_read _ hm, run_bind_ok _ (ih (i + 1) (by omega)),
        run_ret, List.drop_eq_getElem_cons hlt, List.take_succ_cons]

/-- A block that runs over the list's end faults. -/
theorem run_block_error (l : List β) :
    ∀ (n i : Nat), 0 < n → l.length < i + n →
      run (ofList l) (block i n) = .error .unmapped := by
  intro n
  induction n with
  | zero => intro i h; exact absurd h (Nat.lt_irrefl 0)
  | succ n ih =>
      intro i _ hi
      rw [block]
      by_cases hlt : i < l.length
      · have hm : ofList l i = some l[i] := List.getElem?_eq_getElem hlt
        rw [run_read _ hm, run_bind_error _ (ih (i + 1) (by omega) (by omega))]
      · exact run_read_none _ (List.getElem?_eq_none (by omega)) _

/-- Blocks inside the list are the corresponding slices. -/
theorem run_blocks (l : List β) :
    ∀ ps : List (Nat × Nat), (∀ p ∈ ps, p.1 + p.2 ≤ l.length) →
      run (ofList l) (blocks ps) = .ok (ps.flatMap (fun p => (l.drop p.1).take p.2)) := by
  intro ps
  induction ps with
  | nil => exact fun _ => rfl
  | cons p ps ih =>
      intro h
      show run _ ((block p.1 p.2).bind _) = _
      rw [run_bind_ok _ (run_block l p.2 p.1 (h p (List.mem_cons_self ..))),
        run_bind_ok _ (ih (fun q hq => h q (List.mem_cons_of_mem _ hq)))]
      rfl

/-- A memory extended behind its end still agrees on every old cell. -/
theorem ofList_append (l t : List β) {i : Nat} (h : i < l.length) :
    ofList (l ++ t) i = ofList l i :=
  List.getElem?_append_left h

/-- What a list maps stays mapped with more bytes behind it. -/
theorem ofList_append_of_some {l : List β} (t : List β) {i : Nat} {b : β}
    (h : ofList l i = some b) : ofList (l ++ t) i = some b := by
  rw [ofList_append l t (List.getElem?_eq_some_iff.mp h).1]
  exact h

/-- Moving the base drops what is in front of it. -/
theorem ofList_drop (l : List β) (n : Nat) :
    (fun i => ofList l (n + i)) = ofList (l.drop n) := by
  funext i
  rw [ofList_apply, ofList_apply, List.getElem?_drop]

/-- Moving the base over a prefix leaves the rest. -/
theorem ofList_append_right (l t : List β) :
    (fun i => ofList (l ++ t) (l.length + i)) = ofList t := by
  rw [ofList_drop, List.drop_left]

/-- A run over a list faults on a read exactly when it reads past the end. -/
theorem run_ofList_unmapped_iff {l : List β} {p : ReadProg β α} :
    run (ofList l) p = .error .unmapped ↔ ∃ i ∈ trace (ofList l) p, l.length ≤ i := by
  rw [run_unmapped_iff]
  simp [ofList]

/-- Whether a run stays inside a prefix does not depend on what follows it. -/
theorem trace_append_inside {l t : List β} {p : ReadProg β α} :
    (∀ i ∈ trace (ofList (l ++ t)) p, i < l.length)
      ↔ ∀ i ∈ trace (ofList l) p, i < l.length := by
  constructor
  · intro h
    rw [trace_congr 
      (fun i hi => (ofList_append l t (h i hi)).symm)]
    exact h
  · intro h
    rw [trace_congr (m := ofList l) (fun i hi => ofList_append l t (h i hi))]
    exact h

/-- A run stays inside a prefix exactly when the prefix alone is enough for it. -/
theorem trace_inside_iff {l : List β} (t : List β) {p : ReadProg β α} :
    (∀ i ∈ trace (ofList (l ++ t)) p, i < l.length)
      ↔ run (ofList l) p ≠ .error .unmapped := by
  rw [trace_append_inside, Ne, run_ofList_unmapped_iff]
  simp

/-- **EXTENSION**: a run that stays inside a list is the run over any
    extension of it. -/
theorem run_append {l : List β} {p : ReadProg β α}
    (h : run (ofList l) p ≠ .error .unmapped) (t : List β) :
    run (ofList (l ++ t)) p = run (ofList l) p :=
  run_congr (fun i hi => ofList_append l t
    (trace_append_inside.mp ((trace_inside_iff t).mpr h) i hi))

/-- Enough copies of a cell behind a list keep a run from leaving it. -/
theorem exists_tail (l : List β) (b : β) (p : ReadProg β α) :
    ∃ n, run (ofList (l ++ List.replicate n b)) p ≠ .error .unmapped := by
  induction p with
  | ret a => exact ⟨0, fun h => nomatch h⟩
  | stuck => exact ⟨0, fun h => nomatch h⟩
  | read i k ih =>
      -- the cell at `i`, once the list is long enough to have one
      have hlt : i < (l ++ List.replicate (i + 1) b).length := by
        rw [List.length_append, List.length_replicate]
        omega
      obtain ⟨n, hn⟩ := ih (l ++ List.replicate (i + 1) b)[i]
      refine ⟨n + (i + 1), ?_⟩
      have hsplit : l ++ List.replicate (n + (i + 1)) b
          = (l ++ List.replicate n b) ++ List.replicate (i + 1) b := by
        rw [List.replicate_add, List.append_assoc]
      have hsplit' : l ++ List.replicate (n + (i + 1)) b
          = (l ++ List.replicate (i + 1) b) ++ List.replicate n b := by
        rw [Nat.add_comm, List.replicate_add, List.append_assoc]
      have hi : ofList (l ++ List.replicate (n + (i + 1)) b) i
          = some (l ++ List.replicate (i + 1) b)[i] := by
        rw [hsplit', ofList_append _ _ hlt]
        exact List.getElem?_eq_getElem hlt
      rw [run_read _ hi, hsplit, run_append hn]
      exact hn

/-- **INDEPENDENCE OF THE TAIL**: what follows a list does not matter to a run
    exactly when the run stays inside the list. -/
theorem run_tail_iff [Inhabited β] {l : List β} {p : ReadProg β α} :
    (∀ t t', run (ofList (l ++ t)) p = run (ofList (l ++ t')) p)
      ↔ run (ofList l) p ≠ .error .unmapped := by
  constructor
  · intro h hl
    obtain ⟨n, hn⟩ := exists_tail l default p
    refine hn ((h _ []).trans ?_)
    rw [List.append_nil]
    exact hl
  · intro h t t'
    rw [run_append h, run_append h]

/-- Blocks that stay inside a list end inside it. -/
theorem blocks_inside {l : List β} :
    ∀ ps : List (Nat × Nat), run (ofList l) (blocks ps) ≠ .error .unmapped →
      ∀ p ∈ ps, 0 < p.2 → p.1 + p.2 ≤ l.length := by
  intro ps
  induction ps with
  | nil => exact fun _ p hp => nomatch hp
  | cons q ps ih =>
      intro h
      have hq : run (ofList l) (block q.1 q.2) ≠ .error .unmapped :=
        fun hq => h (run_bind_error _ hq _)
      have hle : 0 < q.2 → q.1 + q.2 ≤ l.length := by
        intro hpos
        by_contra hlt
        exact hq (run_block_error l q.2 q.1 hpos (by omega))
      intro p hp hpos
      rcases List.mem_cons.mp hp with rfl | hp
      · exact hle hpos
      · refine ih ?_ p hp hpos
        intro hps
        cases hb : run (ofList l) (block q.1 q.2) with
        | error f =>
            cases f with
            | unmapped => exact hq hb
            | stuck => exact block_not_stuck q.2 q.1 hb
        | ok bs =>
            refine h ?_
            show run _ ((block q.1 q.2).bind _) = _
            rw [run_bind_ok _ hb]
            exact run_bind_error _ hps _

end ReadProg
