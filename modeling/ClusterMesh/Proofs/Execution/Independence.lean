import ClusterMesh.Proofs.Execution.Accounts
import ClusterMesh.Proofs.Mesh.Step

/-!
# Commands in flight do not interfere

Whatever transactions are performed on a store, those of an id find and leave the same account as
if they were the only ones, and are answered alike. Neighbours of different ids may change places.
The stores of a mesh change by transactions alone.
-/

namespace ClusterMesh

namespace PendingStore

variable {s s' : PendingStore} {k : Nat} {p : Pending} {id : String}

/-- The transactions that belong to an id. -/
def belonging (id : String) (es : List Transaction) : List Transaction :=
  es.filter (fun e => e.id == id)

/-- The transactions that belong to an id, with their answers. -/
def answered (id : String) (es : List (Transaction × Answer)) : List (Transaction × Answer) :=
  es.filter (fun e => e.1.id == id)

/-- The same commands are stored under the same ids, though their tickets may be others. -/
structure RenamedBy (s s' : PendingStore) (σ : Ticket → Ticket) : Prop where
  command : ∀ {k : Nat} {p}, s.command? k = some p → s'.command? (σ k) = some p
  covers : ∀ {l : Nat} {p}, s'.command? l = some p → ∃ k, s.command? k = some p ∧ σ k = l
  distinct : ∀ {k l : Nat} {p q}, s.command? k = some p → s.command? l = some q → σ k = σ l → k = l
  entry : ∀ id, s'.get? id = (s.get? id).map σ

/-- What transactions do under an id does not depend on those of other ids, nor on the order of
neighbours with different ids. -/
structure Independent (s : PendingStore) (es : List Transaction) : Prop where
  account : ∀ id n, (s.performAll (es.take n)).1.account id =
    (s.performAll (belonging id (es.take n))).1.account id
  answers : ∀ id, answered id (s.performAll es).2 = (s.performAll (belonging id es)).2
  swap : ∀ {before after e e'}, es = before ++ e :: e' :: after → e.id ≠ e'.id →
    (∃ σ, (s.performAll es).1.RenamedBy (s.performAll (before ++ e' :: e :: after)).1 σ) ∧
    ∀ id, (s.performAll es).1.account id =
        (s.performAll (before ++ e' :: e :: after)).1.account id ∧
      answered id (s.performAll es).2 =
        answered id (s.performAll (before ++ e' :: e :: after)).2

/-! ### Equal accounts -/

/-- Equal accounts of an id stay equal, and so do the answers. -/
theorem performAll_belonging (h : s.Sound) (h' : s'.Sound) (hid : s.account id = s'.account id)
    (es : List Transaction) :
    (s.performAll es).1.account id = (s'.performAll (belonging id es)).1.account id ∧
      answered id (s.performAll es).2 = (s'.performAll (belonging id es)).2 := by
  induction es generalizing s s' with
  | nil => exact ⟨hid, rfl⟩
  | cons e es ih =>
    by_cases he : e.id = id
    · subst he
      have hboth : ((s.perform e).1.account e.id, (s.perform e).2) =
          ((s'.perform e).1.account e.id, (s'.perform e).2) := by
        rw [account_perform h, account_perform h', hid]
      obtain ⟨haccount, hanswer⟩ := Prod.mk.inj hboth
      obtain ⟨haccounts, hanswers⟩ := ih (h.perform e) (h'.perform e) haccount
      have hcons : belonging e.id (e :: es) = e :: belonging e.id es :=
        List.filter_cons_of_pos (by simp)
      rw [hcons]
      refine ⟨haccounts, ?_⟩
      simp only [performAll, answered, hanswer] at hanswers ⊢
      rw [List.filter_cons_of_pos (by simp), hanswers]
    · have haccount : (s.perform e).1.account id = s'.account id :=
        (account_perform_of_ne h fun heq => he heq.symm).trans hid
      have hcons : belonging id (e :: es) = belonging id es :=
        List.filter_cons_of_neg (by simpa using he)
      rw [hcons]
      simp only [performAll, answered]
      rw [List.filter_cons_of_neg (by simpa using he)]
      exact ih (h.perform e) h' haccount

theorem belonging_swap {e e' : Transaction} (h : e.id ≠ e'.id) (id : String)
    (before after : List Transaction) :
    belonging id (before ++ e :: e' :: after) = belonging id (before ++ e' :: e :: after) := by
  unfold belonging
  rw [List.filter_append, List.filter_append]
  congr 1
  by_cases he : e.id = id
  · have he' : ¬e'.id = id := fun heq => h (he.trans heq.symm)
    simp [he, he']
  · simp [List.filter_cons, he]

/-- Sound stores with equal accounts differ in nothing but the tickets. -/
theorem renamedBy_of_account (h : s.Sound) (h' : s'.Sound)
    (heq : ∀ id, s.account id = s'.account id) : ∃ σ, s.RenamedBy s' σ := by
  let σ : Ticket → Ticket := fun k =>
    ((s.command? k).bind fun p => s'.ticket? p.id (s.rank p.id k)).getD 0
  have hσ : ∀ {k p}, s.command? k = some p → ∃ l, σ k = l ∧ s'.command? l = some p ∧
      s'.rank p.id l = s.rank p.id k := by
    intro k p hp
    have hat := getElem?_account hp
    rw [heq] at hat
    obtain ⟨l, hl, -, hrank⟩ := ticket_of_account hat
    have hticket := (ticket?_eq_some s' p.id _ l).mpr ⟨p, hl, rfl, hrank⟩
    exact ⟨l, by simp [σ, hp, hticket], hl, hrank⟩
  refine ⟨σ, ?_, ?_, ?_, ?_⟩
  · intro k p hp
    obtain ⟨l, rfl, hl, -⟩ := hσ hp
    exact hl
  · intro l p hl
    have hat := getElem?_account hl
    rw [← heq] at hat
    obtain ⟨k, hk, -, hrank⟩ := ticket_of_account hat
    obtain ⟨j, hj, hjp, hjrank⟩ := hσ hk
    exact ⟨k, hk, hj.trans ((rank_inj hjp rfl hl rfl).mp (hjrank.trans hrank))⟩
  · intro k l p q hp hq hkl
    obtain ⟨i, hi, hip, hirank⟩ := hσ hp
    obtain ⟨j, hj, hjq, hjrank⟩ := hσ hq
    obtain rfl : i = j := hi.symm.trans (hkl.trans hj)
    obtain rfl : p = q := Option.some.inj (hip.symm.trans hjq)
    exact (rank_inj hp rfl hq rfl).mp (hirank.symm.trans hjrank)
  · intro id
    have hstored : (s.get? id).map (s.rank id) = (s'.get? id).map (s'.rank id) :=
      congrArg Account.stored (heq id)
    cases hget : s.get? id with
    | none =>
      rw [hget] at hstored
      exact Option.map_eq_none_iff.mp hstored.symm
    | some k =>
      rw [hget] at hstored
      obtain ⟨l, hl, hrank⟩ := Option.map_eq_some_iff.mp hstored.symm
      obtain ⟨p, hp, rfl, -⟩ := h.entry hget
      obtain ⟨q, hq, hqid, -⟩ := h'.entry hl
      obtain ⟨j, hj, hjp, hjrank⟩ := hσ hp
      rw [hl, Option.map_some, hj]
      exact congrArg some ((rank_inj hq hqid hjp rfl).mp (hrank.trans hjrank.symm))

theorem sound_empty : empty.Sound where
  entry := fun h => nomatch h
  latest := fun h => nomatch h

/-- Commands in flight do not interfere, however their transactions are interleaved. -/
theorem independent (es : List Transaction) : empty.Independent es where
  account := fun _ n => (performAll_belonging sound_empty sound_empty rfl (es.take n)).1
  answers := fun _ => (performAll_belonging sound_empty sound_empty rfl es).2
  swap := by
    intro before after e e' heq hne
    have hswap : ∀ id, (empty.performAll es).1.account id =
          (empty.performAll (before ++ e' :: e :: after)).1.account id ∧
        answered id (empty.performAll es).2 =
          answered id (empty.performAll (before ++ e' :: e :: after)).2 := by
      intro id
      obtain ⟨haccount, hanswers⟩ := performAll_belonging sound_empty sound_empty
        (rfl : empty.account id = _) es
      obtain ⟨haccount', hanswers'⟩ := performAll_belonging sound_empty sound_empty
        (rfl : empty.account id = _) (before ++ e' :: e :: after)
      rw [haccount, hanswers, haccount', hanswers', heq, belonging_swap hne]
      exact ⟨rfl, rfl⟩
    refine ⟨?_, hswap⟩
    exact renamedBy_of_account (sound_empty.performAll es) (sound_empty.performAll _)
      fun id => (hswap id).1

/-! ### The stores of a mesh -/

/-- A store becomes another by transactions. -/
def Transacts (s s' : PendingStore) : Prop := ∃ es, (s.performAll es).1 = s'

theorem Transacts.refl (s : PendingStore) : s.Transacts s := ⟨[], rfl⟩

theorem Transacts.trans {s'' : PendingStore} (h : s.Transacts s') (h' : s'.Transacts s'') :
    s.Transacts s'' := by
  obtain ⟨es, rfl⟩ := h
  obtain ⟨es', rfl⟩ := h'
  exact ⟨es ++ es', by rw [performAll_append]⟩

theorem transacts_perform (s : PendingStore) (e : Transaction) : s.Transacts (s.perform e).1 :=
  ⟨[e], rfl⟩

theorem update_congr {f g : Pending → Pending} (hp : s.command? k = some p) (h : f p = g p) :
    s.update k f = s.update k g := by
  have hmodify : s.commands.modify k f = s.commands.modify k g := by
    apply List.ext_getElem?
    intro l
    rw [List.getElem?_modify, List.getElem?_modify]
    split
    · next hkl =>
      subst hkl
      rw [show s.commands[k]? = some p from hp]
      exact congrArg some h
    · rfl
  simp only [update, hmodify]

theorem update_update (s : PendingStore) (k : Nat) (f g : Pending → Pending) :
    (s.update k f).update k g = s.update k (fun p => g (f p)) := by
  simp only [update, List.modify_modify_eq]
  rfl

theorem transacts_close (s : PendingStore) (k : Nat) (how : Closing) :
    s.Transacts (s.close k how).1 := by
  cases hp : s.command? k with
  | some p =>
    have hclose := s.transacts_perform (.close how p.id (s.rank p.id k))
    simpa only [perform, ticket?_rank hp] using hclose
  | none =>
    have hupdate : ∀ f, s.update k f = s := by
      intro f
      simp only [update, List.modify_eq_self (List.getElem?_eq_none_iff.mp hp)]
    have hremove : s.removeEntry k = (s, false) := by simp [removeEntry, hp]
    have hsame : (s.close k how).1 = s := by
      cases how with
      | expire => simp [close, expire, hremove]
      | collect => simp [close, hupdate, hremove]
      | withdraw => simp [close, hremove]
      | abandon => simp [close, hupdate]
    rw [hsame]
    exact .refl s

end PendingStore

namespace Mesh

open PendingStore

variable {m m' : Mesh} {t i j : Nat}

theorem updateStore_congr {f g : PendingStore → PendingStore}
    (h : f (m.store i) = g (m.store i)) : m.updateStore i f = m.updateStore i g := by
  have hmodify : m.stations.modify i (fun s => { s with store := f s.store }) =
      m.stations.modify i (fun s => { s with store := g s.store }) := by
    apply List.ext_getElem?
    intro j
    rw [List.getElem?_modify, List.getElem?_modify]
    split
    · next hij =>
      subst hij
      cases hs : m.stations[i]? with
      | none => rfl
      | some s =>
        have hstore : m.store i = s.store := by
          rw [store, station, List.getD_eq_getElem?_getD, hs, Option.getD_some]
        rw [hstore] at h
        simp [h]
    · rfl
  simp only [updateStore, updateStation, hmodify]

theorem updateStore_twice (m : Mesh) (i : Nat) (f g : PendingStore → PendingStore) :
    (m.updateStore i f).updateStore i g = m.updateStore i (fun s => g (f s)) := by
  simp only [updateStore, updateStation, List.modify_modify_eq]
  rfl

theorem stations_timeOut (m : Mesh) (i k : Nat) :
    (m.timeOut i k).1.stations = (m.updateStore i (fun s => (s.onTimeout k).1)).stations := by
  have hupdate := updateStore_congr (f := fun _ => ((m.station i).store.onTimeout k).1)
    (g := fun s => (s.onTimeout k).1) (rfl : _ = ((m.store i).onTimeout k).1)
  rw [← hupdate]
  simp only [timeOut]
  split
  · exact stations_wakeCaller _ i k
  · rfl

theorem store_of_stations (h : m'.stations = m.stations) (j : Nat) : m'.store j = m.store j := by
  rw [store, station, h]
  rfl

theorem transacts_updateStore {f : PendingStore → PendingStore}
    (hf : (m.store i).Transacts (f (m.store i))) (j : Nat) :
    (m.store j).Transacts ((m.updateStore i f).store j) := by
  simp only [store, updateStore, station_updateStation]
  split
  · next h =>
    obtain ⟨rfl, -⟩ := h
    exact hf
  · exact .refl _

theorem transacts_register (m : Mesh) (i : Nat) (c : Command) (timeout j : Nat) :
    (m.store j).Transacts ((m.register i c timeout).1.store j) := by
  have hput : (m.register i c timeout).1.stations =
      (m.updateStore i (fun s => (s.register c).1)).stations := by
    simp only [register]
    split
    · next k hk =>
      refine (stations_timeOut _ i k).trans ?_
      rw [updateStore_twice]
      refine congrArg Mesh.stations (updateStore_congr ?_)
      simp only [PendingStore.register, hk]
    · next hk =>
      rw [show ∀ (m : Mesh) a, (m.spawn i a).1.stations = m.stations from fun _ _ => rfl]
      refine congrArg Mesh.stations (updateStore_congr ?_)
      simp only [PendingStore.register, hk]
  rw [store_of_stations hput]
  exact transacts_updateStore ((m.store i).transacts_perform (.register c)) j

theorem transacts_close (m : Mesh) (i k : Nat) (how : Closing) {f : PendingStore → PendingStore}
    (hf : f (m.store i) = ((m.store i).close k how).1) (j : Nat) :
    (m.store j).Transacts ((m.updateStore i f).store j) := by
  apply transacts_updateStore
  rw [hf]
  exact PendingStore.transacts_close _ k how

theorem transacts_expire (m : Mesh) (i k j : Nat) :
    (m.store j).Transacts ((m.expire i k).1.store j) := by
  have hexpire := transacts_close m i k .expire (f := fun _ => ((m.store i).expire k).1) rfl j
  simp only [expire]
  split
  · rwa [store_wakeCaller]
  · exact hexpire

theorem transacts_correlate (m : Mesh) (i : Nat) (r : CommandResult) (j : Nat) :
    (m.store j).Transacts ((m.correlate i r).1.store j) := by
  have hcorrelate := transacts_updateStore (f := fun _ => ((m.store i).correlate r).1)
    ((m.store i).transacts_perform (.correlate r)) j
  simp only [correlate]
  split
  · rwa [store_wakeCaller]
  · exact hcorrelate

theorem transacts_awaitResults (m : Mesh) (t i : Nat) (c : Command) (k due reaper j : Nat) :
    (m.store j).Transacts ((m.awaitResults t i c k due reaper).store j) := by
  have hreturn : ∀ (m : Mesh) results, (m.returnResults t i c k reaper results).store j =
      (m.updateStore i fun s => ((s.update k Pending.take).removeEntry k).1).store j := by
    intro m results
    simp only [returnResults, endCall, store_finish, store_abort]
  unfold awaitResults
  split
  · next c' collected completed delivery hp =>
    split
    · rw [hreturn]
      apply transacts_close m i k .collect
      simp only [PendingStore.close]
      rw [update_congr hp (g := fun p => p.settled.take) rfl]
    · next hdelivery =>
      split
      · exact .refl _
      · have htimeOut : ((m.timeOut i k).1.returnResults t i c k reaper collected).store j =
            (m.updateStore i fun s =>
              (((s.onTimeout k).1.update k Pending.take).removeEntry k).1).store j := by
          rw [hreturn, ← updateStore_twice m i (fun s => (s.onTimeout k).1)
            fun s => ((s.update k Pending.take).removeEntry k).1]
          refine store_of_stations ?_ j
          exact congrArg (fun stations => List.modify stations i _) (stations_timeOut m i k)
        rw [htimeOut]
        apply transacts_close m i k .collect
        simp only [PendingStore.close, PendingStore.onTimeout, hp]
        rw [update_update, update_congr hp (g := fun p => p.settled.take)]
        cases delivery with
        | delivered results => exact absurd rfl (hdelivery results)
        | _ => rfl
  · exact .refl _

theorem transacts_drop (m : Mesh) (t i : Nat) (a : Activity) (j : Nat) :
    (m.store j).Transacts ((m.drop t i a).store j) := by
  unfold drop
  split
  · exact .refl _
  · next k _ _ => exact transacts_close m i k .abandon (f := fun s => s.update k .abandon) rfl j
  · next k _ _ => exact transacts_close m i k .abandon (f := fun s => s.update k .abandon) rfl j
  · exact .refl _

/-- Whatever happens in a mesh, the stores of the stations change by transactions. -/
theorem Step.transacts {e : Happening} (h : m.Step e m') (j : Nat) :
    (m.store j).Transacts (m'.store j) := by
  cases h with
  | @enter t i c _ _ _ _ =>
    exact transacts_register (m.taken t) i _ ((m.station i).timeoutOf c) j
  | @depart t i k timeout reaper c sent _ =>
    cases sent with
    | error e =>
      have hstore : (m.depart t i c k timeout reaper (.error e)).store j =
          (m.updateStore i fun s => (s.removeEntry k).1).store j := by
        simp only [Mesh.depart, endCall]
        rw [store_finish, store_abort]
      rw [hstore]
      exact transacts_close m i k .withdraw rfl j
    | ok went => exact transacts_awaitResults (m.beginWaiting t c k (m.now + timeout) reaper) ..
  | @wait t i k due reaper c _ _ => exact transacts_awaitResults (m.taken t) ..
  | @reap t i k delay due _ _ =>
    simp only [runReaper]
    split
    · split <;> exact .refl _
    · exact transacts_expire (m.taken t) i k j
  | @drop t i a _ _ _ => exact transacts_drop (m.taken t) t i a j
  | @correlate i r _ => exact transacts_correlate m i r j
  | cancel _ _ =>
    rw [store_abort]
    exact .refl _
  | pass instant _ _ _ => exact .refl _
  | aside ha =>
    rw [ha.store]
    exact .refl _

end Mesh

/-- At any time the store of a station is what transactions have made of an empty one. -/
theorem History.transacts (h : History) (n i : Nat) :
    PendingStore.empty.Transacts ((h.state n).store i) := by
  induction n with
  | zero =>
    obtain ⟨capacity, hstart⟩ := h.start
    rw [hstart]
    exact .refl _
  | succ n ih => exact ih.trans ((h.step n).transacts i)

end ClusterMesh
