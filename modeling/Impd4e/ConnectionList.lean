import Impd4e.Netcon

/-! # The console's connection list

    `netcon_resync`, `connection_close` and `read_cb` share a list of entries,
    their descriptors and their libev watchers.  The three stay in step as long
    as a lost collector finds no entry to park: parking forgets the watcher. -/

namespace Impd4e.Console

open Machine

variable {Cmd : Type}

/-- The list, its descriptors and its watchers are in step. -/
structure Consistent (conns : List Connection) : Prop where
  distinct : ∀ (i j : Nat) (a b : Connection), conns[i]? = some a → conns[j]? = some b → 0 ≤ a.fd →
    a.fd = b.fd → i = j
  running : ∀ conn ∈ conns, conn.evRead.isSome = true ↔ conn.fd ≠ -1
  setFor : ∀ conn ∈ conns, ∀ fd, conn.evRead = some fd → fd = conn.fd

/-- `netcon_resync` is to set up an entry whose watcher still runs. -/
def Reinitialises (s : Netcon Cmd) : Event Cmd → Prop
  | .netconRegister _ _ => False
  | .netconResync fd _ =>
      0 ≤ fd ∧ (∀ conn ∈ s.conn, conn.fd ≠ fd) ∧
        ∃ conn, s.conn.find? (fun conn => conn.fd = -1) = some conn ∧
          conn.evRead.isSome = true
  | .readCb _ _ _ _ => False

/-- The collector is lost while an entry holds a descriptor. -/
def ParksEntry (s : Netcon Cmd) : Event Cmd → Prop
  | .netconRegister _ _ => False
  | .netconResync fd _ => fd < 0 ∧ ∃ conn ∈ s.conn, 0 < conn.fd
  | .readCb _ _ _ _ => False

/-- **THE LIST IS KEPT** — along a run that starts with no entry, every state is
    consistent and no event sets up a running watcher. -/
def ListKept (reg : List Cmd) (es : List (Event Cmd)) : Prop :=
  ∀ before after s out, es = before ++ after →
    run step ⟨reg, []⟩ before = some (s, out) →
      Consistent s.conn ∧ ∀ e rest, after = e :: rest → ¬ Reinitialises s e

/-! ## Changing one entry -/

/-- `conns'` is `conns` with `conn` as the entry `k`. -/
def Puts (conns : List Connection) (k : Nat) (conn : Connection)
    (conns' : List Connection) : Prop :=
  ∀ i c, conns'[i]? = some c → (i = k ∧ c = conn) ∨ (i ≠ k ∧ conns[i]? = some c)

theorem puts_set (conns : List Connection) (k : Nat) (conn : Connection) :
    Puts conns k conn (conns.set k conn) := by
  intro i c hc
  rw [List.getElem?_set] at hc
  by_cases hi : k = i
  · rw [if_pos hi] at hc
    split at hc
    · exact Or.inl ⟨hi.symm, (Option.some.inj hc).symm⟩
    · cases hc
  · rw [if_neg hi] at hc
    exact Or.inr ⟨fun h => hi h.symm, hc⟩

theorem puts_snoc (conns : List Connection) (conn : Connection) :
    Puts conns conns.length conn (conns ++ [conn]) := by
  intro i c hc
  rcases Nat.lt_or_ge i conns.length with hlt | hge
  · rw [List.getElem?_append_left hlt] at hc
    exact Or.inr ⟨Nat.ne_of_lt hlt, hc⟩
  · rw [List.getElem?_append_right hge] at hc
    obtain ⟨hi, rfl⟩ := List.getElem?_eq_some_iff.mp hc
    rw [List.length_singleton] at hi
    exact Or.inl ⟨by omega, List.getElem_singleton _⟩

/-- A consistent list takes an entry that fits its watcher and whose descriptor
    no other entry holds. -/
theorem Consistent.put {conns conns' : List Connection} (h : Consistent conns) {k : Nat}
    {conn : Connection} (hputs : Puts conns k conn conns')
    (hrunning : conn.evRead.isSome = true ↔ conn.fd ≠ -1)
    (hsetFor : ∀ fd, conn.evRead = some fd → fd = conn.fd)
    (hnew : 0 ≤ conn.fd → ∀ j b, conns[j]? = some b → b.fd = conn.fd → j = k) :
    Consistent conns' := by
  refine ⟨?_, ?_, ?_⟩
  · intro i j a b ha hb hpos heq
    rcases hputs i a ha with ⟨hi, rfl⟩ | ⟨hi, ha'⟩
    · rcases hputs j b hb with ⟨hj, -⟩ | ⟨hj, hb'⟩
      · exact hi.trans hj.symm
      · exact absurd (hnew hpos j b hb' heq.symm) hj
    · rcases hputs j b hb with ⟨hj, rfl⟩ | ⟨hj, hb'⟩
      · exact absurd (hnew (heq ▸ hpos) i a ha' heq) hi
      · exact h.distinct i j a b ha' hb' hpos heq
  · intro c hc
    obtain ⟨i, hi⟩ := List.mem_iff_getElem?.mp hc
    rcases hputs i c hi with ⟨-, rfl⟩ | ⟨-, hold⟩
    · exact hrunning
    · exact h.running c (List.mem_of_getElem? hold)
  · intro c hc
    obtain ⟨i, hi⟩ := List.mem_iff_getElem?.mp hc
    rcases hputs i c hi with ⟨-, rfl⟩ | ⟨-, hold⟩
    · exact hsetFor
    · exact h.setFor c (List.mem_of_getElem? hold)

/-- Setting up a connection takes one entry, or leaves the list. -/
theorem setupConnection_puts (fd : Int) (calloc : Bool) (conns : List Connection) :
    setupConnection fd calloc conns = conns ∨
      ∃ k inBuf, Puts conns k ⟨fd, some fd, inBuf⟩ (setupConnection fd calloc conns) := by
  suffices h : (∃ k conn, conns[k]? = some conn ∧ setupConnection fd calloc conns =
      conns.set k ⟨fd, some fd, conn.inBuf⟩) ∨
      setupConnection fd calloc conns = conns ++ (if calloc then [⟨fd, some fd, []⟩] else []) by
    rcases h with ⟨k, conn, -, hset⟩ | happend
    · exact Or.inr ⟨k, conn.inBuf, hset ▸ puts_set conns k _⟩
    · cases calloc with
      | true => exact Or.inr ⟨conns.length, [], happend ▸ puts_snoc conns _⟩
      | false => exact Or.inl (happend.trans (List.append_nil conns))
  induction conns with
  | nil => exact Or.inr rfl
  | cons conn rest ih =>
      rw [setupConnection]
      by_cases hfree : conn.fd = -1
      · rw [if_pos hfree]
        exact Or.inl ⟨0, conn, rfl, rfl⟩
      · rw [if_neg hfree]
        rcases ih with ⟨k, c, hget, hset⟩ | happend
        · exact Or.inl ⟨k + 1, c, hget, by rw [hset, List.set_cons_succ]⟩
        · exact Or.inr (by rw [happend, List.cons_append])

/-! ## One event -/

/-- Parking nothing changes nothing. -/
theorem netconResync_lost {s : Netcon Cmd} {fd : Int} (hfd : fd < 0)
    (hnone : ∀ conn ∈ s.conn, ¬ 0 < conn.fd) (calloc : Bool) :
    netconResync s fd calloc = s := by
  have hmap : (s.conn.map fun conn => if 0 < conn.fd then { conn with fd := -1 } else conn) =
      s.conn.map id :=
    List.map_congr_left fun conn hconn => if_neg (hnone conn hconn)
  rw [List.map_id] at hmap
  rw [netconResync, if_pos hfd, hmap]

/-- A descriptor that is no loss keeps the list consistent. -/
theorem netconResync_consistent {s : Netcon Cmd} (h : Consistent s.conn) {fd : Int}
    (hfd : 0 ≤ fd) (calloc : Bool) : Consistent (netconResync s fd calloc).conn := by
  rw [netconResync, if_neg (Int.not_lt.mpr hfd)]
  by_cases hany : s.conn.any (fun conn => conn.fd == fd) = true
  · rw [if_pos hany]
    exact h
  · rw [if_neg hany]
    show Consistent (setupConnection fd calloc s.conn)
    rcases setupConnection_puts fd calloc s.conn with hsame | ⟨k, inBuf, hputs⟩
    · rw [hsame]
      exact h
    · refine h.put hputs ?_ (fun fd' h => (Option.some.inj h).symm) ?_
      · exact ⟨fun _ => by show fd ≠ -1; omega, fun _ => rfl⟩
      · intro _ j b hb heq
        -- no entry had the descriptor
        refine absurd (List.any_eq_true.mpr ⟨b, List.mem_of_getElem? hb, ?_⟩) hany
        exact beq_iff_eq.mpr heq

/-- A read event keeps it, too. -/
theorem readCb_consistent {s : Netcon Cmd} (h : Consistent s.conn) {i : Nat}
    {conn conn' : Connection} (hconn : s.conn[i]? = some conn) {answer : Nat → Int}
    {revents : Revents} {received : List UInt8} {out : List (Dispatch Cmd)}
    (hread : readCb s.reg answer revents received conn = some (conn', out)) :
    Consistent (s.conn.set i conn') := by
  have hmem := List.mem_of_getElem? hconn
  -- an entry with the same descriptor and watcher
  have same : conn'.fd = conn.fd → conn'.evRead = conn.evRead →
      Consistent (s.conn.set i conn') := by
    intro hfd hev
    refine h.put (puts_set _ i conn') ?_ ?_ ?_
    · rw [hev, hfd]
      exact h.running conn hmem
    · rw [hev, hfd]
      exact h.setFor conn hmem
    · intro hpos j b hb heq
      exact (h.distinct i j conn b hconn hb (hfd ▸ hpos) (by rw [heq, hfd])).symm
  rcases readCb_cases hread with ⟨rfl, -⟩ | ⟨rfl, -⟩ | ⟨inBuf, d, -, rfl, -⟩
  · exact same rfl rfl
  · -- `connection_close` stops the watcher
    refine h.put (puts_set _ i _) ?_ ?_ ?_
    · constructor
      · intro hrun
        cases hrun
      · intro hfd
        exact absurd rfl hfd
    · intro fd hfd
      cases hfd
    · intro hpos
      exact absurd hpos (show ¬ (0 : Int) ≤ -1 by decide)
  · exact same rfl rfl

theorem step_consistent {s s' : Netcon Cmd} {e : Event Cmd} {out : List (Dispatch Cmd)}
    (h : Consistent s.conn) (hparks : ¬ ParksEntry s e) (hstep : step s e = some (s', out)) :
    Consistent s'.conn := by
  cases e with
  | netconRegister cmd calloc =>
      obtain ⟨rfl, -⟩ := Prod.mk.inj (Option.some.inj hstep)
      cases cmd with
      | none => exact h
      | some cmd => cases calloc <;> exact h
  | netconResync fd calloc =>
      obtain ⟨rfl, -⟩ := Prod.mk.inj (Option.some.inj hstep)
      by_cases hfd : fd < 0
      · rw [netconResync_lost hfd (fun conn hmem hpos => hparks ⟨hfd, conn, hmem, hpos⟩)]
        exact h
      · exact netconResync_consistent h (Int.not_lt.mp hfd) calloc
  | readCb i answer revents received =>
      obtain ⟨conn, conn', hconn, hread, rfl⟩ := step_readCb_eq_some.mp hstep
      exact readCb_consistent h hconn hread

/-- A free entry of a consistent list has no running watcher. -/
theorem consistent_not_reinitialises {s : Netcon Cmd} (h : Consistent s.conn)
    (e : Event Cmd) : ¬ Reinitialises s e := by
  cases e with
  | netconRegister cmd calloc => exact id
  | netconResync fd calloc =>
      rintro ⟨-, -, conn, hfind, hrunning⟩
      have hfree : conn.fd = -1 := by
        have := List.find?_some hfind
        exact of_decide_eq_true this
      exact (h.running conn (List.mem_of_find?_eq_some hfind)).mp hrunning hfree
  | readCb i answer revents received => exact id

/-- Parking an entry of a consistent list leaves its watcher running. -/
theorem parked_not_consistent {s : Netcon Cmd} (h : Consistent s.conn) {fd : Int}
    (hfd : fd < 0) {conn : Connection} (hmem : conn ∈ s.conn) (hpos : 0 < conn.fd)
    (calloc : Bool) : ¬ Consistent (netconResync s fd calloc).conn := by
  intro hafter
  have hrun : conn.evRead.isSome = true := (h.running conn hmem).mpr (by omega)
  have hparked : { conn with fd := -1 } ∈ (netconResync s fd calloc).conn := by
    rw [netconResync, if_pos hfd]
    exact List.mem_map.mpr ⟨conn, hmem, if_pos hpos⟩
  exact (hafter.running _ hparked).mp hrun rfl

/-! ## Runs -/

/-- **THE LIST IS KEPT EXACTLY WHERE NOTHING IS PARKED.** -/
theorem listKept_iff (reg : List Cmd) (es : List (Event Cmd)) :
    ListKept reg es ↔
      ∀ before e rest s out, es = before ++ e :: rest →
        run step ⟨reg, []⟩ before = some (s, out) → ¬ ParksEntry s e := by
  constructor
  · intro h before e rest s out hes hrun hparks
    have hs := (h before (e :: rest) s out hes hrun).1
    cases e with
    | netconRegister cmd calloc => exact hparks
    | netconResync fd calloc =>
        obtain ⟨hfd, conn, hmem, hpos⟩ := hparks
        refine parked_not_consistent hs hfd hmem hpos calloc ?_
        refine (h (before ++ [.netconResync fd calloc]) rest (netconResync s fd calloc)
          (out ++ []) ?_ ?_).1
        · rw [hes, List.append_assoc, List.singleton_append]
        · exact run_snoc_eq_some.mpr ⟨s, out, [], hrun, rfl, rfl⟩
    | readCb i answer revents received => exact hparks
  · intro h before after s out hes hrun
    have hs : Consistent s.conn := by
      refine (run_rule (P := fun before s out => run step ⟨reg, []⟩ before = some (s, out) ∧
        ((∃ after, es = before ++ after) → Consistent s.conn)) ?_ ?_ hrun).2 ⟨after, hes⟩
      · refine ⟨rfl, fun _ => ⟨?_, ?_, ?_⟩⟩
        · intro i j a b ha
          cases ha
        · intro conn hconn
          exact absurd hconn List.not_mem_nil
        · intro conn hconn
          exact absurd hconn List.not_mem_nil
      · rintro before s out e s' out' ⟨hrun, ih⟩ hstep
        refine ⟨run_snoc_eq_some.mpr ⟨s, out, out', hrun, hstep, rfl⟩, ?_⟩
        rintro ⟨rest, hes⟩
        rw [List.append_assoc, List.singleton_append] at hes
        exact step_consistent (ih ⟨e :: rest, hes⟩) (h before e rest s out hes hrun) hstep
    exact ⟨hs, fun e rest _ => consistent_not_reinitialises hs e⟩

/-- **LOSING THE COLLECTOR BREAKS THE LIST**: the parked entry's watcher goes on
    running. -/
theorem lost_collector_breaks_list :
    ¬ ListKept ([] : List Unit) [.netconResync 7 true, .netconResync (-1) true] := by
  intro h
  have hs := (h [.netconResync 7 true, .netconResync (-1) true] [] _ _ rfl rfl).1
  exact (hs.running ⟨-1, some 7, []⟩ List.mem_cons_self).mp rfl rfl

end Impd4e.Console
