import SequencerHub.Proofs.Shutdown
import SequencerHub.Server.Serving

/-! A server takes whole turns: a request is served as far as it can be, and everybody is given the response that is
there, before anything else happens. A reception where one thing happens at a time can do the same. So what holds of
every run of a reception holds of the loop that the program runs: `Mirrors.run` carries it over, and `Mirrors.returned`
does so for the end of the loop. -/
namespace SequencerHub
namespace Reception

def Move.Plain (n : Nat) : Move → Prop
  | hub (.advance _) _ | gates _ | handle _ | answer _ | hangUp _ => True
  | hub (.cancel k) _ => k = n
  | arrive (.http k _) => k = n
  | _ => False

theorem Move.Plain.serves {n : Nat} {m : Move} (hm : m.Plain n) : m.Serves n := by
  cases m with
  | hub m single => cases m <;> first | exact hm.elim | exact trivial
  | arrive e => cases e <;> exact hm
  | _ => exact trivial

variable {abandon : Task → Task}

/-- One who has joined a task that has come to its end is given the response, and nothing becomes of anybody else. -/
theorem answered_cases (h : Hub) (g : Guest) :
    (answered h g = g ∧ ∀ e k id, g = ⟨e, .joining k id⟩ → h.reply? k = none) ∨
      ∃ e k id reply, g = ⟨e, .joining k id⟩ ∧ h.reply? k = some reply ∧
        answered h g = ⟨e, .answered (e.respond id reply)⟩ := by
  obtain ⟨e, stage⟩ := g
  cases stage with
  | joining k id =>
    cases hr : h.reply? k with
    | some reply => exact .inr ⟨e, k, id, reply, rfl, hr, by simp only [answered, hr]⟩
    | none =>
      refine .inl ⟨by simp only [answered, hr], ?_⟩
      rintro _ _ _ ⟨⟩
      exact hr
  | _ => exact .inl ⟨rfl, fun _ _ _ h => by cases h⟩

theorem answered_eq_joining {h : Hub} {g : Guest} {e : Entrance} {k : Nat} {id : UInt16} :
    answered h g = ⟨e, .joining k id⟩ ↔ g = ⟨e, .joining k id⟩ ∧ h.reply? k = none := by
  obtain ⟨heq, hnone⟩ | ⟨e', k', id', reply, rfl, hr, heq⟩ := answered_cases h g
  · rw [heq]
    exact ⟨fun hg => ⟨hg, hnone e k id hg⟩, And.left⟩
  · rw [heq]
    refine ⟨nofun, ?_⟩
    rintro ⟨⟨⟩, hn⟩
    rw [hr] at hn
    cases hn

theorem answered_eq_answered {h : Hub} {g : Guest} {e : Entrance} {r : Response} :
    answered h g = ⟨e, .answered r⟩ ↔ g = ⟨e, .answered r⟩ ∨
      ∃ k id reply, g = ⟨e, .joining k id⟩ ∧ h.reply? k = some reply ∧ e.respond id reply = r := by
  obtain ⟨heq, hnone⟩ | ⟨e', k', id', reply, rfl, hr, heq⟩ := answered_cases h g
  · rw [heq]
    refine ⟨.inl, Or.rec id ?_⟩
    rintro ⟨k, id, reply, hg, hr, -⟩
    rw [hnone e k id hg] at hr
    cases hr
  · rw [heq]
    constructor
    · rintro ⟨⟩
      exact .inr ⟨k', id', reply, rfl, hr, rfl⟩
    · rintro (⟨⟨⟩⟩ | ⟨k, id, reply', ⟨⟩, hr', rfl⟩)
      obtain rfl : reply = reply' := Option.some.inj (hr.symm.trans hr')
      rfl

theorem answered_answered (h : Hub) (g : Guest) : answered h (answered h g) = answered h g := by
  obtain ⟨heq, -⟩ | ⟨e, k, id, reply, -, -, heq⟩ := answered_cases h g
  · rw [heq, heq]
  · rw [heq]
    rfl

theorem answered_entrance (h : Hub) (g : Guest) : (answered h g).entrance = g.entrance := by
  obtain ⟨heq, -⟩ | ⟨e, k, id, reply, rfl, -, heq⟩ := answered_cases h g <;> rw [heq]

theorem answered_hasBegun (h : Hub) {g : Guest} (hg : g.stage.HasBegun) : (answered h g).stage.HasBegun := by
  obtain ⟨heq, -⟩ | ⟨e, k, id, reply, -, -, heq⟩ := answered_cases h g
  · rwa [heq]
  · rw [heq]
    exact trivial

def advances (h : Hub) : List Move := (List.range h.tasks.length).map fun k => .hub (.advance k) nofun

def answers (s : Reception) : List Move := (List.range s.guests.length).map .answer

theorem run_advances (s : Reception) : s.run abandon (advances s.hub) = { s with hub := s.hub.settle } := by
  have hfold : ∀ (ks : List Nat) (s : Reception),
      s.run abandon (ks.map fun k => .hub (.advance k) nofun) = { s with hub := ks.foldl Hub.advance s.hub } := by
    intro ks
    induction ks with
    | nil => exact fun s => rfl
    | cons k ks ih => exact fun s => ih _
  exact hfold _ s

theorem run_answers (s : Reception) :
    s.run abandon (answers s) = { s with guests := s.guests.map (answered s.hub) } := by
  have hfold : ∀ (ks : List Nat) (s : Reception), (s.run abandon (ks.map .answer)).hub = s.hub ∧
      ∀ i, (s.run abandon (ks.map .answer)).guests[i]? =
        if i ∈ ks then (s.guests[i]?).map (answered s.hub) else s.guests[i]? := by
    intro ks
    induction ks with
    | nil => exact fun s => ⟨rfl, fun i => rfl⟩
    | cons k ks ih =>
      intro s
      obtain ⟨hhub, hguests⟩ := ih (s.answer k)
      refine ⟨hhub, fun i => (hguests i).trans ?_⟩
      simp only [answer, List.getElem?_modify, List.mem_cons]
      by_cases hk : k = i <;> by_cases hi : i ∈ ks <;>
        simp [hk, hi, Option.map_map, Function.comp_def, answered_answered, eq_comm]
  obtain ⟨hhub, hguests⟩ := hfold (List.range s.guests.length) s
  have hall : (s.run abandon (answers s)).guests = s.guests.map (answered s.hub) := by
    refine List.ext_getElem? fun i => (hguests i).trans ?_
    rw [List.getElem?_map]
    split_ifs with hi
    · rfl
    · rw [List.getElem?_eq_none_iff.mpr (by simpa using hi)]
      rfl
  rw [← hall, ← hhub]
  rfl

end Reception

namespace Server.Serving

open Reception (Move)

/-- A server that serves whole turns, and a reception where one thing happens at a time: who waits and what has been
given back are the same. -/
structure Mirrors (s : Serving) (r : Reception) : Prop where
  hub : r.hub = s.hub
  taken : s.taken = r.guests.length
  entrance : ∀ g ∈ r.guests, ∃ q, g.entrance = .http s.host q
  begun : ∀ g ∈ r.guests, g.stage.HasBegun
  clients : ∀ c, c ∈ s.clients ↔ ∃ e, r.guests[c.request]? = some ⟨e, .joining c.task c.providerId⟩
  responses : ∀ n x, (n, x) ∈ s.responses ↔ ∃ e, r.guests[n]? = some ⟨e, .answered (.http x)⟩

section Mirrors

variable {abandon : Task → Task} {s : Serving} {r : Reception}

theorem Mirrors.isDone_iff (h : Mirrors s r) : s.isDone = true ↔ r.IsDone s.host := by
  have hempty : s.clients.isEmpty = true ↔ ∀ g ∈ r.guests, ¬ g.stage.Waits := by
    rw [List.isEmpty_iff, List.eq_nil_iff_forall_not_mem]
    constructor
    · rintro hnone ⟨e, stage⟩ hg hwaits
      obtain ⟨n, hn⟩ := List.mem_iff_getElem?.mp hg
      cases stage with
      | arriving => exact h.begun _ hg
      | joining task id => exact hnone ⟨n, task, id⟩ ((h.clients _).mpr ⟨e, hn⟩)
      | _ => exact hwaits
    · intro hidle c hc
      obtain ⟨e, he⟩ := (h.clients c).mp hc
      exact hidle _ (List.mem_of_getElem? he) trivial
  have hstop : s.isStopping = true ↔ r.hub.IsStopping s.host := by rw [h.hub]; rfl
  rw [isDone, Bool.and_eq_true, hstop, hempty]
  exact ⟨fun hd => ⟨hd.1, hd.2⟩, fun hd => ⟨hd.stopping, hd.idle⟩⟩

theorem Mirrors.withHub (h : Mirrors s r) (hub : Hub) : Mirrors { s with hub } { r with hub } :=
  ⟨rfl, h.taken, h.entrance, h.begun, h.clients, h.responses⟩

theorem Mirrors.respondAll (h : Mirrors s r) (abandon : Task → Task) :
    Mirrors s.respondAll (r.run abandon (Reception.answers r)) := by
  rw [Reception.run_answers, h.hub]
  refine ⟨rfl, h.taken.trans (List.length_map _).symm, ?_, ?_, ?_, ?_⟩
  · rintro _ hg
    obtain ⟨g, hmem, rfl⟩ := List.mem_map.mp hg
    rw [Reception.answered_entrance]
    exact h.entrance g hmem
  · rintro _ hg
    obtain ⟨g, hmem, rfl⟩ := List.mem_map.mp hg
    exact Reception.answered_hasBegun s.hub (h.begun g hmem)
  · intro c
    simp only [Serving.respondAll, List.mem_filter, h.clients, List.getElem?_map, Option.map_eq_some_iff,
      Reception.answered_eq_joining, response?, Option.isNone_iff_eq_none, Option.map_eq_none_iff]
    constructor
    · rintro ⟨⟨e, he⟩, hr⟩
      exact ⟨e, _, he, rfl, hr⟩
    · rintro ⟨e, _, he, rfl, hr⟩
      exact ⟨⟨e, he⟩, hr⟩
  · intro n x
    simp only [Serving.respondAll, List.mem_append, List.mem_filterMap, h.responses, h.clients, List.getElem?_map,
      Option.map_eq_some_iff, Reception.answered_eq_answered, response?, Prod.mk.injEq]
    constructor
    · rintro (⟨e, he⟩ | ⟨c, ⟨e, he⟩, reply, hr, rfl, rfl⟩)
      · exact ⟨e, _, he, .inl rfl⟩
      · obtain ⟨q, rfl⟩ := h.entrance _ (List.mem_of_getElem? he)
        exact ⟨_, _, he, .inr ⟨_, _, reply, rfl, hr, rfl⟩⟩
    · rintro ⟨e, _, he, rfl | ⟨k, id, reply, rfl, hr, hx⟩⟩
      · exact .inl ⟨e, he⟩
      · obtain ⟨q, rfl⟩ := h.entrance _ (List.mem_of_getElem? he)
        refine .inr ⟨⟨n, k, id⟩, ⟨_, he⟩, reply, hr, rfl, ?_⟩
        exact Response.http.inj hx

theorem Mirrors.add (h : Mirrors s r) {s' : Serving} {q : HttpRequest} {stage : Stage} (hbegun : stage.HasBegun)
    (hhost : s'.host = s.host) (htaken : s'.taken = s.taken + 1)
    (hclients : ∀ c, c ∈ s'.clients ↔
      c ∈ s.clients ∨ c.request = s.taken ∧ stage = .joining c.task c.providerId)
    (hresponses : ∀ n x, (n, x) ∈ s'.responses ↔ (n, x) ∈ s.responses ∨ n = s.taken ∧ stage = .answered (.http x)) :
    Mirrors s' { hub := s'.hub, guests := r.guests ++ [⟨.http s.host q, stage⟩] } := by
  refine ⟨rfl, ?_, fun g hg => ?_, fun g hg => ?_, fun c => ?_, fun n x => ?_⟩
  · rw [htaken, h.taken, List.length_append, List.length_singleton]
  · rw [hhost]
    rcases List.mem_append.mp hg with hg | hg
    · exact h.entrance g hg
    · exact ⟨q, by rw [List.mem_singleton.mp hg]⟩
  · rcases List.mem_append.mp hg with hg | hg
    · exact h.begun g hg
    · rwa [List.mem_singleton.mp hg]
  · simp only [hclients, h.clients, Reception.getElem?_concat_iff, exists_or, h.taken, Guest.mk.injEq,
      exists_and_left]
    simp [eq_comm]
  · simp only [hresponses, h.responses, Reception.getElem?_concat_iff, exists_or, h.taken, Guest.mk.injEq,
      exists_and_left]
    simp [eq_comm]

theorem Mirrors.respond (h : Mirrors s r) (q : HttpRequest) (hub : Hub) (x : HttpResponse) :
    Mirrors ({ s with taken := s.taken + 1, hub }.respond s.taken x)
      { hub, guests := r.guests ++ [⟨.http s.host q, .answered (.http x)⟩] } :=
  h.add trivial rfl rfl (by simp [Serving.respond]) (by simp [Serving.respond, eq_comm])

/-- All that is under way goes on as far as it can. -/
theorem Mirrors.turn (h : Mirrors s r) (abandon : Task → Task) : ∃ ms, (∀ m ∈ ms, Move.Plain s.host m) ∧
    Mirrors (Serving.respondAll { s with hub := s.hub.settle }) (r.run abandon ms) := by
  have hturn := (h.withHub s.hub.settle).respondAll abandon
  refine ⟨Reception.advances r.hub ++ Reception.answers r, fun m hm => ?_, ?_⟩
  · rcases List.mem_append.mp hm with hm | hm
    · obtain ⟨k, -, rfl⟩ := List.mem_map.mp hm
      exact trivial
    · obtain ⟨k, -, rfl⟩ := List.mem_map.mp hm
      exact trivial
  · rw [Reception.run_append, Reception.run_advances, h.hub]
    exact hturn

/-- A request comes in, and what it sets going goes on as far as it can. -/
theorem Mirrors.take (h : Mirrors s r) (hstop : s.isStopping = false) (q : HttpRequest) :
    ∃ ms, (∀ m ∈ ms, Move.Plain s.host m) ∧ Mirrors (s.take q) (r.run abandon ms) := by
  have he : r.hub.admits (.http s.host q) = true := by
    simpa [Hub.admits, h.hub, isStopping] using hstop
  have hcome := Reception.run_come abandon r he
  have hserves : ∀ m ∈ [Move.arrive (.http s.host q), .handle r.guests.length], Move.Plain s.host m := by
    simp [Move.Plain]
  rw [h.hub, Hub.receive] at hcome
  simp only [Serving.take]
  cases hq : Http.routed q with
  | respond x =>
    refine ⟨_, hserves, ?_⟩
    rw [hcome, hq]
    exact h.respond q _ _
  | shutdown =>
    refine ⟨_, hserves, ?_⟩
    rw [hcome, hq]
    exact h.respond q _ _
  | rpc id request =>
    rw [hq] at hcome
    have hjoined : Mirrors
        { s with
          taken := s.taken + 1
          hub := (s.hub.start (.sending (.direct s.host) id request)).1
          clients := s.clients ++ [⟨s.taken, s.hub.tasks.length, id⟩] }
        (r.run abandon [.arrive (.http s.host q), .handle r.guests.length]) := by
      rw [hcome]
      refine h.add trivial rfl rfl (fun c => ?_) (by simp [Hub.spawn])
      obtain ⟨number, task, id'⟩ := c
      simp [Hub.spawn, eq_comm]
    obtain ⟨ms, hms, hturn⟩ := hjoined.turn abandon
    refine ⟨[.arrive (.http s.host q), .handle r.guests.length] ++ ms, fun m hm => ?_, ?_⟩
    · exact (List.mem_append.mp hm).elim (hserves m) (hms m)
    · rw [Reception.run_append]
      exact hturn

theorem Mirrors.hangUp (hd : Reception.Detaches abandon) (h : Mirrors s r) (n : Nat) :
    Mirrors { s with clients := s.clients.filter (·.request ≠ n) } (r.hangUp abandon n) := by
  have hclients : ∀ c, c ∈ s.clients.filter (·.request ≠ n) ↔ c ∈ s.clients ∧ c.request ≠ n := fun c => by simp
  simp only [Reception.hangUp]
  split
  · rename_i g hg
    obtain ⟨e, stage⟩ := g
    have hlen : n < r.guests.length := (List.getElem?_eq_some_iff.mp hg).1
    have hjoining : ∀ e' k id, (⟨e, stage.hungUp⟩ : Guest) ≠ ⟨e', .joining k id⟩ := by
      cases stage <;> simp [Stage.hungUp]
    have hanswered : ∀ e' x, (⟨e, stage.hungUp⟩ : Guest) = ⟨e', .answered x⟩ ↔
        (⟨e, stage⟩ : Guest) = ⟨e', .answered x⟩ := by
      cases stage <;> simp [Stage.hungUp]
    refine ⟨(hd.leave r.hub stage).trans h.hub, ?_, fun g hmem => ?_, fun g hmem => ?_, fun c => ?_, fun k x => ?_⟩
    · rw [List.length_set]
      exact h.taken
    · rcases List.mem_or_eq_of_mem_set hmem with hmem | rfl
      · exact h.entrance g hmem
      · exact h.entrance ⟨e, stage⟩ (List.mem_of_getElem? hg)
    · rcases List.mem_or_eq_of_mem_set hmem with hmem | rfl
      · exact h.begun g hmem
      · have hbegun : stage.HasBegun := h.begun ⟨e, stage⟩ (List.mem_of_getElem? hg)
        cases stage <;> first | exact hbegun.elim | exact trivial
    · rw [hclients, h.clients]
      rcases eq_or_ne n c.request with rfl | hne
      · simp [List.getElem?_set_self hlen, hjoining]
      · simp [List.getElem?_set_ne hne, hne.symm]
    · rw [h.responses]
      rcases eq_or_ne n k with rfl | hne
      · simp only [List.getElem?_set_self hlen, hg, Option.some.injEq, hanswered]
      · simp only [List.getElem?_set_ne hne]
  · rename_i hg
    refine ⟨h.hub, h.taken, h.entrance, h.begun, fun c => ?_, h.responses⟩
    rw [hclients, h.clients]
    refine ⟨And.left, fun hc => ⟨hc, ?_⟩⟩
    rintro rfl
    obtain ⟨e, he⟩ := hc
    rw [hg] at he
    cases he

theorem Mirrors.step (hd : Reception.Detaches abandon) (h : Mirrors s r) (e : Event) :
    ∃ ms, (∀ m ∈ ms, Move.Plain s.host m) ∧ Mirrors (s.step e) (r.run abandon ms) := by
  cases e with
  | request q =>
    simp only [Serving.step]
    split
    · exact ⟨[], fun _ hm => absurd hm List.not_mem_nil, h⟩
    · rename_i hstop
      exact h.take (by simpa using hstop) q
  | hangUp n => exact ⟨[.hangUp n], by simp [Move.Plain], h.hangUp hd n⟩
  | openGate gate =>
    obtain ⟨ms, hms, hturn⟩ := (h.withHub { s.hub with opened := gate :: s.hub.opened.filter (· ≠ gate) }).turn
      abandon
    refine ⟨.gates (gate :: s.hub.opened.filter (· ≠ gate)) :: ms, ?_, ?_⟩
    · exact List.forall_mem_cons.mpr ⟨trivial, hms⟩
    · have hgates : r.step abandon (.gates (gate :: s.hub.opened.filter (· ≠ gate))) =
          { r with hub := { s.hub with opened := gate :: s.hub.opened.filter (· ≠ gate) } } := by
        rw [Reception.step, h.hub]
      rw [Reception.run, List.foldl_cons, hgates]
      exact hturn
  | signal =>
    have hsingle : ∀ gate, Hub.Move.cancel s.host ≠ .openGate gate := by simp
    refine ⟨[.hub (.cancel s.host) hsingle], by simp [Move.Plain], ?_⟩
    have hcancel : r.run abandon [.hub (.cancel s.host) hsingle] = { r with hub := s.hub.cancel s.host } := by
      rw [← h.hub]
      rfl
    rw [hcancel]
    exact h.withHub _

theorem host_step (s : Serving) (e : Event) : (s.step e).host = s.host := by
  cases e with
  | request q =>
    simp only [Serving.step, Serving.take]
    split
    · rfl
    · split <;> rfl
  | _ => rfl

theorem host_run (s : Serving) (events : List Event) : (s.run events).host = s.host :=
  List.foldlRecOn events Serving.step (motive := fun s' => s'.host = s.host) rfl
    fun s' h e _ => (s'.host_step e).trans h

/-- Whatever happens at a server, the same comes of it where one thing happens at a time. -/
theorem Mirrors.run (hd : Reception.Detaches abandon) (h : Mirrors s r) (events : List Event) :
    ∃ ms, (∀ m ∈ ms, Move.Plain s.host m) ∧ Mirrors (s.run events) (r.run abandon ms) := by
  induction events generalizing s r with
  | nil => exact ⟨[], fun _ hm => absurd hm List.not_mem_nil, h⟩
  | cons e events ih =>
    obtain ⟨ms, hms, hstep⟩ := h.step hd e
    obtain ⟨ms', hms', hrun⟩ := ih hstep
    rw [s.host_step e] at hms'
    refine ⟨ms ++ ms', fun m hm => (List.mem_append.mp hm).elim (hms m) (hms' m), ?_⟩
    rw [Reception.run_append]
    exact hrun

theorem stopServing_single (n : Nat) : ∀ gate, Hub.Move.stopServing n ≠ .openGate gate := by simp

theorem tearDown_single (n : Nat) : ∀ gate, Hub.Move.tearDown n ≠ .openGate gate := by simp

def closing (n : Nat) : List Reception.Move :=
  [.hub (.stopServing n) (stopServing_single n), .hub (.tearDown n) (tearDown_single n)]

theorem Mirrors.hub_closing (h : Mirrors s r) (abandon : Task → Task) (hdone : s.isDone = true) :
    (r.run abandon (closing s.host)).hub =
      { s.finish.1 with tasks := s.hub.tasks ++ [.tearing s.finish.2] } := by
  obtain ⟨host, hhost, -⟩ := Hub.isStopping_iff.mp (h.isDone_iff.mp hdone).stopping
  rw [h.hub] at hhost
  have hstopped : (s.hub.stopServing s.host).hosts[s.host]? = some host := hhost
  rw [closing, Reception.run, List.foldl_cons, List.foldl_cons, List.foldl_nil]
  simp only [Reception.step, Hub.step, h.hub, Hub.tearDown, hstopped, finish, Hub.start, Hub.setHost]
  rfl

/-- A server that is done and whose teardown comes to its end returns. -/
theorem Mirrors.returned {o : Reception} {ms : List Reception.Move} (h : Mirrors s (o.run abandon ms))
    (hdone : s.isDone = true) (hend : s.finish.2 = .finished) :
    Reception.Returned abandon s.host o (ms ++ closing s.host) := by
  refine ⟨ms, [], rfl, h.isDone_iff.mp hdone, ?_⟩
  rw [Reception.TornDown, Reception.run_append, h.hub_closing abandon hdone, h.hub, List.getElem?_concat_length, hend]
  rfl

end Mirrors
end Server.Serving
end SequencerHub
