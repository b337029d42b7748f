import SequencerHub.Proofs.Departures

/-! Additions in the background: they are issued, they go on by themselves, and their callers wait for them or drop
them. None is mixed up with another, lost or done twice. -/
namespace SequencerHub

/-- How an addition in the background stands with its caller. -/
inductive Fate
  | held
  | awaited
  | yielded (r : Except CallError Int32)
  | dropped

/-- An addition that has been issued. -/
structure Errand where
  handle : Handle
  x : Int32
  y : Int32
  background : Background
  fate : Fate := .held

namespace Errand

def request (c : Errand) : Request := .computeSum c.handle.id c.x c.y

def task (c : Errand) : Nat := c.background.task

def wait (c : Errand) : Errand :=
  match c.fate with
  | .held => { c with fate := .awaited }
  | _ => c

def yield (h : Hub) (c : Errand) : Errand :=
  match c.fate, c.background.result? h with
  | .awaited, some r => { c with fate := .yielded r }
  | _, _ => c

def drop (c : Errand) : Errand :=
  match c.fate with
  | .held | .awaited => { c with fate := .dropped }
  | _ => c

def bare (c : Errand) : Errand := { c with fate := .held }

end Errand

namespace Hub

/-- What is dispatched on providers when a task goes on: the task, the host, the provider and the request. -/
def dispatches (h : Hub) : Move → List (Nat × Nat × UInt16 × Request)
  | .advance k =>
    match h.tasks[k]? with
    | some (.sending link id r) => (h.arrival? link id r).toList.map fun a => (k, a.1, a.2.id, r)
    | _ => []
  | _ => []

def calling (h : Hub) : Move → List (Nat × Nat × Call)
  | .advance k => ((h.advance k).ledger.calls.drop h.ledger.calls.length).map fun c => (k, c)
  | _ => []

end Hub

structure Errands where
  hub : Hub
  /-- All that were ever issued, in turn. -/
  issued : List Errand := []
  /-- All that was dispatched on providers, each with its task. -/
  dispatched : List (Nat × Nat × UInt16 × Request) := []
  /-- All calls of backends that tasks have made. -/
  called : List (Nat × Nat × Call) := []

namespace Errands

inductive Move
  | hub (m : Hub.Move) (single : ∀ gate, m ≠ .openGate gate)
  | gates (opened : Gates)
  | issue (s : Handle) (x y : Int32)
  | wait (n : Nat)
  | yield (n : Nat)
  | drop (n : Nat)

def Move.advance (k : Nat) : Move := .hub (.advance k) (Hub.advance_single k)

def issue (e : Errands) (s : Handle) (x y : Int32) : Errands :=
  let (hub, background) := s.computeSumLater e.hub x y
  { e with hub, issued := e.issued ++ [{ handle := s, x, y, background }] }

def step (e : Errands) : Move → Errands
  | .hub m _ =>
    { e with
      hub := e.hub.step m
      dispatched := e.dispatched ++ e.hub.dispatches m
      called := e.called ++ e.hub.calling m }
  | .gates opened => { e with hub := { e.hub with opened } }
  | .issue s x y => e.issue s x y
  | .wait n => { e with issued := e.issued.modify n Errand.wait }
  | .yield n => { e with issued := e.issued.modify n (Errand.yield e.hub) }
  | .drop n => { e with issued := e.issued.modify n Errand.drop }

def run (e : Errands) (ms : List Move) : Errands := ms.foldl step e

def opening (h : Hub) : Errands := { hub := h }

/-- Whether something happens that is not up to the callers of additions that were issued. -/
def Move.isWork : Move → Bool
  | hub .. | gates _ | issue .. => true
  | _ => false

def ofTask {α : Type} (k : Nat) (record : List (Nat × α)) : List α := (record.filter (·.1 = k)).map (·.2)

section Records

variable {α : Type} {k : Nat}

theorem ofTask_append (xs ys : List (Nat × α)) : ofTask k (xs ++ ys) = ofTask k xs ++ ofTask k ys := by
  simp [ofTask]

theorem ofTask_self (xs : List α) : ofTask k (xs.map fun x => (k, x)) = xs := by
  simp [ofTask, List.filter_map, Function.comp_def]

theorem ofTask_other {j : Nat} (hj : j ≠ k) (xs : List α) : ofTask k (xs.map fun x => (j, x)) = [] := by
  simp [ofTask, hj]

theorem ofTask_new {xs : List (Nat × α)} (h : ∀ x ∈ xs, x.1 < k) : ofTask k xs = [] := by
  have hnone : xs.filter (·.1 = k) = [] := List.filter_eq_nil_iff.mpr fun x hx => by
    simpa using (h x hx).ne
  rw [ofTask, hnone, List.map_nil]

end Records
end Errands

namespace Hub

section Records

open Errands (ofTask ofTask_self ofTask_other)

variable {h : Hub} {k : Nat}

theorem ofTask_dispatches {m : Move} (hm : m ≠ .advance k) : ofTask k (h.dispatches m) = [] := by
  cases m with
  | advance j =>
    have hj : j ≠ k := fun heq => hm (heq ▸ rfl)
    simp only [dispatches]
    split
    · rename_i link id r _
      have hmap := ofTask_other hj ((h.arrival? link id r).toList.map fun a => (a.1, a.2.id, r))
      rwa [List.map_map] at hmap
    · rfl
  | _ => rfl

theorem ofTask_calling {m : Move} (hm : m ≠ .advance k) : ofTask k (h.calling m) = [] := by
  cases m with
  | advance j =>
    have hj : j ≠ k := fun heq => hm (heq ▸ rfl)
    exact ofTask_other hj _
  | _ => rfl

theorem dispatches_lt {m : Move} : ∀ x ∈ h.dispatches m, x.1 < h.tasks.length := by
  intro x hx
  cases m with
  | advance j =>
    simp only [dispatches] at hx
    split at hx
    · rename_i hj
      obtain ⟨a, -, rfl⟩ := List.mem_map.mp hx
      exact (List.getElem?_eq_some_iff.mp hj).1
    · cases hx
  | _ => cases hx

theorem calling_lt {m : Move} : ∀ x ∈ h.calling m, x.1 < h.tasks.length := by
  intro x hx
  cases m with
  | advance j =>
    obtain ⟨c, hc, rfl⟩ := List.mem_map.mp hx
    cases hj : h.tasks[j]? with
    | none => simp [advance, hj] at hc
    | some t => exact (List.getElem?_eq_some_iff.mp hj).1
  | _ => cases hx

theorem dispatches_sending {link : Link} {id : UInt16} {r : Request} (hk : h.tasks[k]? = some (.sending link id r)) :
    ofTask k (h.dispatches (.advance k)) = (h.arrival? link id r).toList.map fun a => (a.1, a.2.id, r) := by
  have hmap := ofTask_self (k := k) ((h.arrival? link id r).toList.map fun a => (a.1, a.2.id, r))
  rw [List.map_map] at hmap
  simp only [dispatches, hk]
  exact hmap

theorem calling_advance {t : Task} (hk : h.tasks[k]? = some t) {more : List (Nat × Call)}
    (hc : (h.run t).1.ledger.calls = h.ledger.calls ++ more) : ofTask k (h.calling (.advance k)) = more := by
  have hl : (h.advance k).ledger.calls = h.ledger.calls ++ more := by rw [h.advance_eq t hk, hc]
  rw [calling, ofTask_self, hl, List.drop_left]

theorem calling_sending {link : Link} {id : UInt16} {r : Request} (hk : h.tasks[k]? = some (.sending link id r)) :
    ofTask k (h.calling (.advance k)) = (h.arrival? link id r).elim [] fun a => a.2.begins r h.ledger := by
  refine calling_advance hk ?_
  cases ha : h.arrival? link id r with
  | none =>
    obtain ⟨y, hy⟩ := send_of_no_arrival ha
    have hledger : (h.send link id r).1.ledger = h.ledger := (hy h.opened).2
    rw [run, hledger, Option.elim_none, List.append_nil]
  | some a =>
    obtain ⟨l, l', -, hcalls⟩ := send_of_arrival (n := a.1) (p := a.2) ha
    exact hcalls

section Due

variable {β : Type} {read : Except TransportError Json → β} {a : β} {gates : Gates} {t : Task}

/-- A task to which a reply is due sends nothing and calls no backend again. -/
theorem dispatches_due (hk : h.tasks[k]? = some t) (hd : t.Due read a gates) : h.dispatches (.advance k) = [] := by
  simp only [dispatches, hk]
  cases hd with
  | replied hy => rfl
  | bears hb ha hg => cases hb <;> rfl

theorem calling_due (hk : h.tasks[k]? = some t) (hd : t.Due read a gates) :
    ofTask k (h.calling (.advance k)) = [] := by
  refine calling_advance hk ?_
  rw [List.append_nil]
  cases hd with
  | replied hy => rfl
  | bears hb ha hg =>
    cases hb with
    | @serving link providerId id w' he ha =>
      exact (Dispatch.sameBooks_resume h.opened (.running id _ w') h.ledger).calls
    | replied => rfl

end Due
end Records
end Hub

theorem Provider.begins_computeSum (p : Provider) (id : SequencerId) (x y : Int32) (l : Ledger) :
    p.begins (.computeSum id x y) l = (p.live.find? id).toList.map fun i => (i.serial, .sum x y) := by
  have haccess : p.access? (.computeSum id x y) l = some (.lookup id) := rfl
  simp only [begins, haccess, Option.bind_some, Access.finds, Access.target?, Request.call?]
  cases p.live.find? id <;> rfl

namespace Errands

/-- What it means that the records are in order: every addition has a task of its own, and a result that was given is
the reply of that task. -/
structure Sound (e : Errands) : Prop where
  tasks : ∀ c ∈ e.issued, c.task < e.hub.tasks.length
  nodup : (e.issued.map Errand.task).Nodup
  dispatched : ∀ x ∈ e.dispatched, x.1 < e.hub.tasks.length
  called : ∀ x ∈ e.called, x.1 < e.hub.tasks.length
  told : ∀ c ∈ e.issued, ∀ r, c.fate = .yielded r → c.background.result? e.hub = some r

/-- An addition whose request has not left its client. -/
structure Unsent (e : Errands) (c : Errand) : Prop where
  task : e.hub.tasks[c.task]? = some (.sending c.handle.endpoint.link c.handle.providerId c.request)
  dispatched : ofTask c.task e.dispatched = []
  called : ofTask c.task e.called = []

/-- An addition whose request has left at the point `g` of a run: it was dispatched once, where it arrived, and its
result is what the synchronous call would have come to at that point. -/
structure Sent (g : Hub) (e : Errands) (c : Errand) (a : Except CallError Int32) (gates : Gates) : Prop where
  dispatched : ofTask c.task e.dispatched =
    (g.arrival? c.handle.endpoint.link c.handle.providerId c.request).toList.map fun x => (x.1, x.2.id, c.request)
  called : ofTask c.task e.called =
    (g.arrival? c.handle.endpoint.link c.handle.providerId c.request).elim [] fun x =>
      (x.2.live.find? c.handle.id).toList.map fun i => (i.serial, .sum c.x c.y)
  sumsTo : c.handle.SumsTo g c.x c.y a
  due : ∃ t, e.hub.tasks[c.task]? = some t ∧ t.Due (settled .int32) a gates

structure Becomes (h : Hub) (c c' : Errand) : Prop where
  bare : c'.bare = c.bare
  told : ∀ r, c'.fate = .yielded r → c.fate = .yielded r ∨ c.background.result? h = some r

section Step

variable {e : Errands} {c c' : Errand} {g : Hub} {a : Except CallError Int32} {gates : Gates}

theorem Becomes.refl (h : Hub) (c : Errand) : Becomes h c c := ⟨rfl, fun _ => .inl⟩

theorem background_of_bare (h : c'.bare = c.bare) : c'.background = c.background := (Errand.mk.inj h).2.2.2.1

theorem becomes_wait (h : Hub) (c : Errand) : Becomes h c c.wait := by
  unfold Errand.wait
  split
  · exact ⟨rfl, fun r hy => by cases hy⟩
  · exact .refl h c

theorem becomes_yield (h : Hub) (c : Errand) : Becomes h c (c.yield h) := by
  unfold Errand.yield
  split
  · rename_i hr
    exact ⟨rfl, fun r hy => .inr (Fate.yielded.inj hy ▸ hr)⟩
  · exact .refl h c

theorem becomes_drop (h : Hub) (c : Errand) : Becomes h c c.drop := by
  unfold Errand.drop
  split
  · exact ⟨rfl, fun r hy => by cases hy⟩
  · exact ⟨rfl, fun r hy => by cases hy⟩
  · exact .refl h c

theorem issued_step (m : Move) {n : Nat} (hc : (e.step m).issued[n]? = some c') :
    (∃ c, e.issued[n]? = some c ∧ Becomes e.hub c c') ∨
      ∃ s x y, m = .issue s x y ∧ c' = { handle := s, x, y, background := ⟨e.hub.tasks.length⟩ } := by
  have hmodify : ∀ (f : Errand → Errand) (k : Nat), (∀ c, Becomes e.hub c (f c)) →
      (e.issued.modify k f)[n]? = some c' → ∃ c, e.issued[n]? = some c ∧ Becomes e.hub c c' := by
    intro f k hf hc
    rw [List.getElem?_modify] at hc
    obtain ⟨c, hn, rfl⟩ := Option.map_eq_some_iff.mp hc
    refine ⟨c, hn, ?_⟩
    split_ifs
    · exact hf c
    · exact .refl e.hub c
  cases m with
  | hub m single => exact .inl ⟨c', hc, .refl e.hub c'⟩
  | gates opened => exact .inl ⟨c', hc, .refl e.hub c'⟩
  | issue s x y =>
    have hc : (e.issued ++ [{ handle := s, x, y, background := ⟨e.hub.tasks.length⟩ }])[n]? = some c' := hc
    rw [List.getElem?_append] at hc
    split_ifs at hc
    · exact .inl ⟨c', hc, .refl e.hub c'⟩
    · exact .inr ⟨s, x, y, rfl, (List.mem_singleton.mp (List.mem_of_getElem? hc))⟩
  | wait k => exact .inl (hmodify _ k (becomes_wait e.hub) hc)
  | yield k => exact .inl (hmodify _ k (becomes_yield e.hub) hc)
  | drop k => exact .inl (hmodify _ k (becomes_drop e.hub) hc)

theorem result?_step (e : Errands) (m : Move) {b : Background} {r : Except CallError Int32}
    (hr : b.result? e.hub = some r) : b.result? (e.step m).hub = some r := by
  obtain ⟨y, hy, rfl⟩ := Option.map_eq_some_iff.mp hr
  have hkeep : (e.step m).hub.reply? b.task = some y := by
    cases m with
    | hub m single => exact Hub.step_reply? single hy
    | issue s x z =>
      obtain ⟨t, ht, hreply⟩ := Option.bind_eq_some_iff.mp hy
      have happend : (e.hub.tasks ++ [.sending s.endpoint.link s.providerId (.computeSum s.id x z)])[b.task]? =
          some t := by rw [List.getElem?_append_left (List.getElem?_eq_some_iff.mp ht).1, ht]
      exact (congrArg (Option.bind · Task.reply?) happend).trans hreply
    | _ => exact hy
  rw [Background.result?, hkeep, Option.map_some]

theorem Unsent.congr (hu : Unsent e c) (hc : c'.bare = c.bare) : Unsent e c' := by
  cases c
  cases c'
  cases hc
  exact ⟨hu.task, hu.dispatched, hu.called⟩

theorem Sent.congr (hs : Sent g e c a gates) (hc : c'.bare = c.bare) : Sent g e c' a gates := by
  cases c
  cases c'
  cases hc
  exact ⟨hs.dispatched, hs.called, hs.sumsTo, hs.due⟩

/-- A request stays with its client until its task goes on, and then it leaves. -/
theorem Unsent.step (hu : Unsent e c) (m : Move) : (m ≠ .advance c.task ∧ Unsent (e.step m) c) ∨
    (m = .advance c.task ∧ ∃ a gates, Sent e.hub (e.step m) c a gates) := by
  cases m with
  | hub m single =>
    obtain ⟨hne, hstep⟩ | ⟨rfl, hstep⟩ := Hub.step_task_cases single hu.task
    · refine .inl ⟨fun heq => hne (Move.hub.inj heq), hstep, ?_, ?_⟩
      · rw [Errands.step, ofTask_append, hu.dispatched, Hub.ofTask_dispatches hne, List.append_nil]
      · rw [Errands.step, ofTask_append, hu.called, Hub.ofTask_calling hne, List.append_nil]
    · obtain ⟨a, gates, hdue, hsum⟩ := c.handle.send_sumsTo e.hub c.x c.y
      refine .inr ⟨rfl, a, gates, ?_, ?_, hsum, _, hstep, hdue⟩
      · rw [Errands.step, ofTask_append, hu.dispatched, Hub.dispatches_sending hu.task, List.nil_append]
      · rw [Errands.step, ofTask_append, hu.called, Hub.calling_sending hu.task, List.nil_append]
        simp only [Errand.request, Provider.begins_computeSum]
  | issue s x y =>
    refine .inl ⟨by simp [Move.advance], ?_, hu.dispatched, hu.called⟩
    exact (List.getElem?_append_left (List.getElem?_eq_some_iff.mp hu.task).1).trans hu.task
  | _ => exact .inl ⟨by simp [Move.advance], hu.task, hu.dispatched, hu.called⟩

/-- What has left stays as it is, whatever happens. -/
theorem Sent.step (hs : Sent g e c a gates) (m : Move) : Sent g (e.step m) c a gates := by
  obtain ⟨t, ht, hdue⟩ := hs.due
  cases m with
  | hub m single =>
    obtain ⟨hne, hstep⟩ | ⟨rfl, hstep⟩ := Hub.step_task_cases single ht
    · refine ⟨?_, ?_, hs.sumsTo, t, hstep, hdue⟩
      · rw [Errands.step, ofTask_append, Hub.ofTask_dispatches hne, List.append_nil, hs.dispatched]
      · rw [Errands.step, ofTask_append, Hub.ofTask_calling hne, List.append_nil, hs.called]
    · refine ⟨?_, ?_, hs.sumsTo, _, hstep, hdue.run e.hub⟩
      · rw [Errands.step, Hub.dispatches_due ht hdue, List.append_nil, hs.dispatched]
      · rw [Errands.step, ofTask_append, Hub.calling_due ht hdue, List.append_nil, hs.called]
  | issue s x y =>
    refine ⟨hs.dispatched, hs.called, hs.sumsTo, t, ?_, hdue⟩
    exact (List.getElem?_append_left (List.getElem?_eq_some_iff.mp ht).1).trans ht
  | _ => exact ⟨hs.dispatched, hs.called, hs.sumsTo, t, ht, hdue⟩

theorem map_modify {α β : Type} {f : α → α} {g : α → β} (hf : ∀ x, g (f x) = g x) (xs : List α) (n : Nat) :
    (xs.modify n f).map g = xs.map g := by
  refine List.ext_getElem? fun i => ?_
  rw [List.getElem?_map, List.getElem?_modify, List.getElem?_map]
  cases xs[i]? with
  | none => rfl
  | some x => by_cases hi : n = i <;> simp [hi, hf]

theorem issue_tasks_length (e : Errands) (s : Handle) (x y : Int32) :
    (e.step (.issue s x y)).hub.tasks.length = e.hub.tasks.length + 1 := List.length_append

theorem step_tasks_length (e : Errands) (m : Move) : e.hub.tasks.length ≤ (e.step m).hub.tasks.length := by
  cases m with
  | hub m single => exact Hub.step_tasks_length single
  | issue s x y => exact e.issue_tasks_length s x y ▸ Nat.le_succ _
  | _ => exact Nat.le_refl _

/-- No two additions have the same task. -/
theorem Sound.nodup_step (hs : e.Sound) (m : Move) : ((e.step m).issued.map Errand.task).Nodup := by
  have hmodify : ∀ (f : Errand → Errand) (n : Nat), (∀ c, Becomes e.hub c (f c)) →
      ((e.issued.modify n f).map Errand.task).Nodup := by
    intro f n hf
    have htask : ∀ c, (f c).task = c.task := fun c => congrArg Background.task (background_of_bare (hf c).bare)
    rw [map_modify htask]
    exact hs.nodup
  cases m with
  | issue s x y =>
    have hmap : (e.step (.issue s x y)).issued.map Errand.task = e.issued.map Errand.task ++ [e.hub.tasks.length] :=
      List.map_append
    rw [hmap]
    refine hs.nodup.append (List.nodup_singleton _) fun k hk hnew => ?_
    obtain ⟨c, hc, rfl⟩ := List.mem_map.mp hk
    exact (hs.tasks c hc).ne (List.mem_singleton.mp hnew)
  | wait k => exact hmodify _ k (becomes_wait e.hub)
  | yield k => exact hmodify _ k (becomes_yield e.hub)
  | drop k => exact hmodify _ k (becomes_drop e.hub)
  | _ => exact hs.nodup

theorem Sound.step (hs : e.Sound) (m : Move) : (e.step m).Sound := by
  have hlen := e.step_tasks_length m
  refine ⟨fun c' hc' => ?_, hs.nodup_step m, ?_, ?_, fun c' hc' r hr => ?_⟩
  · obtain ⟨n, hn⟩ := List.mem_iff_getElem?.mp hc'
    obtain ⟨c, hc, hb⟩ | ⟨s, x, y, rfl, rfl⟩ := issued_step m hn
    · have htask : c'.task = c.task := congrArg Background.task (background_of_bare hb.bare)
      exact htask ▸ Nat.lt_of_lt_of_le (hs.tasks c (List.mem_of_getElem? hc)) hlen
    · exact e.issue_tasks_length s x y ▸ Nat.lt_succ_self _
  · cases m with
    | hub m single =>
      intro x hx
      rcases List.mem_append.mp hx with hx | hx
      · exact Nat.lt_of_lt_of_le (hs.dispatched x hx) hlen
      · exact Nat.lt_of_lt_of_le (Hub.dispatches_lt x hx) hlen
    | _ => exact fun x hx => Nat.lt_of_lt_of_le (hs.dispatched x hx) hlen
  · cases m with
    | hub m single =>
      intro x hx
      rcases List.mem_append.mp hx with hx | hx
      · exact Nat.lt_of_lt_of_le (hs.called x hx) hlen
      · exact Nat.lt_of_lt_of_le (Hub.calling_lt x hx) hlen
    | _ => exact fun x hx => Nat.lt_of_lt_of_le (hs.called x hx) hlen
  · obtain ⟨n, hn⟩ := List.mem_iff_getElem?.mp hc'
    obtain ⟨c, hc, hb⟩ | ⟨s, x, y, -, rfl⟩ := issued_step m hn
    · rw [background_of_bare hb.bare]
      rcases hb.told r hr with hr | hr
      · exact result?_step e m (hs.told c (List.mem_of_getElem? hc) r hr)
      · exact result?_step e m hr
    · cases hr

theorem run_concat (e : Errands) (ms : List Move) (m : Move) : e.run (ms ++ [m]) = (e.run ms).step m := by
  rw [run, List.foldl_append]
  rfl

theorem run_sound (h : Hub) (ms : List Move) : ((opening h).run ms).Sound := by
  induction ms using List.reverseRecOn with
  | nil =>
    exact ⟨List.forall_mem_nil _, List.nodup_nil, List.forall_mem_nil _, List.forall_mem_nil _, List.forall_mem_nil _⟩
  | append_singleton ms m ih =>
    rw [run_concat]
    exact ih.step m

/-- After a run, the request of an addition is still with its client, or it has left at one point of the run. -/
theorem run_cases (h : Hub) (ms : List Move) {n : Nat} (hc : ((opening h).run ms).issued[n]? = some c) :
    Unsent ((opening h).run ms) c ∨ ∃ before after a gates, ms = before ++ .advance c.task :: after ∧
      Sent ((opening h).run before).hub ((opening h).run ms) c a gates := by
  induction ms using List.reverseRecOn generalizing c with
  | nil => cases hc
  | append_singleton ms m ih =>
    rw [run_concat] at hc
    obtain ⟨c₀, hc₀, hb⟩ | ⟨s, x, y, rfl, rfl⟩ := issued_step m hc
    · have htask : c.task = c₀.task := congrArg Background.task (background_of_bare hb.bare)
      obtain hu | ⟨before, after, a, gates, rfl, hs⟩ := ih hc₀
      · obtain ⟨-, hu⟩ | ⟨rfl, a, gates, hs⟩ := hu.step m
        · exact .inl (run_concat _ ms m ▸ hu.congr hb.bare)
        · exact .inr ⟨ms, [], a, gates, by rw [htask], run_concat _ ms _ ▸ hs.congr hb.bare⟩
      · refine .inr ⟨before, after ++ [m], a, gates, by simp [htask], ?_⟩
        rw [run_concat]
        exact (hs.step m).congr hb.bare
    · have hsound := run_sound h ms
      rw [run_concat]
      exact .inl ⟨List.getElem?_concat_length, ofTask_new hsound.dispatched, ofTask_new hsound.called⟩

theorem Unsent.result? (hu : Unsent e c) : c.background.result? e.hub = none := by
  have hreply : e.hub.reply? c.background.task = none := congrArg (Option.bind · Task.reply?) hu.task
  rw [Background.result?, hreply, Option.map_none]

theorem Sent.result? (hs : Sent g e c a gates) {r : Except CallError Int32}
    (hr : c.background.result? e.hub = some r) : r = a := by
  obtain ⟨t, ht, hdue⟩ := hs.due
  obtain ⟨y, hy, rfl⟩ := Option.map_eq_some_iff.mp hr
  obtain ⟨t', ht', hreply⟩ := Option.bind_eq_some_iff.mp hy
  obtain rfl : t = t' := Option.some.inj (ht.symm.trans ht')
  exact hdue.reply? hreply

/-- One who waits is given the result when the gates are open and the task goes on. -/
theorem Sent.yields (hs : Sent g e c a gates) {n : Nat} (hc : e.issued[n]? = some c) (hf : c.fate = .awaited)
    {opened : Gates} (ho : gates ⊆ opened) :
    (e.run [.gates opened, .advance c.task, .yield n]).issued[n]? = some { c with fate := .yielded a } := by
  obtain ⟨t, ht, hdue⟩ := hs.due
  let h : Hub := { e.hub with opened }
  have htask : (h.advance c.task).tasks[c.task]? = some (h.run t).2 := h.advance_self ht
  have hresult : c.background.result? (h.advance c.task) = some a := by
    have hreply : (h.advance c.task).reply? c.background.task = (h.run t).2.reply? :=
      congrArg (Option.bind · Task.reply?) htask
    rw [Background.result?, hreply]
    exact hdue.run_reply? ho
  have hyield : c.yield (h.advance c.task) = { c with fate := .yielded a } := by
    simp only [Errand.yield, hf, hresult]
  have hissued : (e.run [.gates opened, .advance c.task, .yield n]).issued =
      e.issued.modify n (Errand.yield (h.advance c.task)) := rfl
  rw [hissued, List.getElem?_modify, hc]
  simp [hyield]

end Step

def bare (e : Errands) : Errands := { e with issued := e.issued.map Errand.bare }

theorem step_bare (e : Errands) (m : Move) : (e.step m).bare = if m.isWork then e.bare.step m else e.bare := by
  have hmodify : ∀ (f : Errand → Errand) (n : Nat), (∀ c, Becomes e.hub c (f c)) →
      bare { e with issued := e.issued.modify n f } = e.bare := fun f n hf => by
    simp only [bare, map_modify fun c => (hf c).bare]
  cases m with
  | hub m single => rfl
  | gates opened => rfl
  | issue s x y => simp [step, issue, bare, Move.isWork, Handle.computeSumLater, Errand.bare]
  | wait n => exact hmodify _ n (becomes_wait e.hub)
  | yield n => exact hmodify _ n (becomes_yield e.hub)
  | drop n => exact hmodify _ n (becomes_drop e.hub)

theorem run_bare (e : Errands) (ms : List Move) : (e.run ms).bare = e.bare.run (ms.filter Move.isWork) := by
  induction ms generalizing e with
  | nil => rfl
  | cons m ms ih =>
    rw [run, List.foldl_cons, ← run, ih, step_bare, List.filter_cons]
    split_ifs <;> rfl

/-- How the addition of a number stands after a run. -/
inductive Stands (h : Hub) (ms : List Move) (n : Nat) (c : Errand) : Prop
  /-- Nothing has been done for it, and no result has been given. -/
  | unsent (hu : Unsent ((opening h).run ms) c) (hf : ∀ r, c.fate ≠ .yielded r)
  /-- No other result has been given than that of the synchronous call, and one who waits will be given it. -/
  | sent {before after : List Move} {a : Except CallError Int32} {gates : Gates}
      (split : ms = before ++ .advance c.task :: after)
      (hs : Sent ((opening h).run before).hub ((opening h).run ms) c a gates) (hf : ∀ r, c.fate = .yielded r → r = a)
      (comes : c.fate = .awaited → ∀ opened, gates ⊆ opened →
        (((opening h).run ms).run [.gates opened, .advance c.task, .yield n]).issued[n]? =
          some { c with fate := .yielded a })

structure Alike (e e' : Errands) : Prop where
  hub : e'.hub = e.hub
  dispatched : e'.dispatched = e.dispatched
  called : e'.called = e.called
  issued : e'.issued.map Errand.bare = e.issued.map Errand.bare
  results : ∀ (n : Nat) (c c' : Errand) r r', e.issued[n]? = some c → e'.issued[n]? = some c' → c.fate = .yielded r →
    c'.fate = .yielded r' → r' = r

/-- What it means that the additions of a run are not mixed up. -/
structure KeptApart (h : Hub) (ms : List Move) : Prop where
  apart : (((opening h).run ms).issued.map Errand.task).Nodup
  stands : ∀ (n : Nat) c, ((opening h).run ms).issued[n]? = some c → Stands h ms n c
  /-- A request has left once its task has gone on. -/
  leaves : ∀ (n : Nat) c, ((opening h).run ms).issued[n]? = some c →
    ∃ g a gates, Sent g (((opening h).run ms).step (.advance c.task)) c a gates
  /-- Neither the order in which callers wait nor what they drop makes a difference. -/
  order : ∀ ms', ms'.filter Move.isWork = ms.filter Move.isWork → Alike ((opening h).run ms) ((opening h).run ms')

/-- Additions in the background are kept apart, whatever happens meanwhile and whatever their callers make of them. -/
theorem additions_keptApart (h : Hub) (ms : List Move) : KeptApart h ms where
  apart := (run_sound h ms).nodup
  stands n c hc := by
    have htold : ∀ r, c.fate = .yielded r → c.background.result? ((opening h).run ms).hub = some r :=
      (run_sound h ms).told c (List.mem_of_getElem? hc)
    obtain hu | ⟨before, after, a, gates, hsplit, hs⟩ := run_cases h ms hc
    · refine .unsent hu fun r hr => ?_
      cases hu.result?.symm.trans (htold r hr)
    · exact .sent hsplit hs (fun r hr => hs.result? (htold r hr)) fun hf opened ho => hs.yields hc hf ho
  leaves n c hc := by
    obtain hu | ⟨before, after, a, gates, -, hs⟩ := run_cases h ms hc
    · obtain ⟨hne, -⟩ | ⟨-, a, gates, hs⟩ := hu.step (.advance c.task)
      · exact absurd rfl hne
      · exact ⟨_, a, gates, hs⟩
    · exact ⟨_, a, gates, hs.step _⟩
  order ms' hms := by
    have hbare : ((opening h).run ms').bare = ((opening h).run ms).bare := by rw [run_bare, run_bare, hms]
    obtain ⟨hhub, hissued, hdispatched, hcalled⟩ := Errands.mk.inj hbare
    refine ⟨hhub, hdispatched, hcalled, hissued, fun n c c' r r' hc hc' hr hr' => ?_⟩
    have hb : c'.bare = c.bare := by
      have hn := congrArg (fun cs => cs[n]?) hissued
      simpa [hc, hc'] using hn
    have htold := (run_sound h ms).told c (List.mem_of_getElem? hc) r hr
    have htold' := (run_sound h ms').told c' (List.mem_of_getElem? hc') r' hr'
    rw [hhub, background_of_bare hb, htold] at htold'
    exact (Option.some.inj htold').symm

end Errands
end SequencerHub
