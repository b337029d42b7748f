import SequencerHub.Client.Admin
import SequencerHub.Proofs.ClientView
import SequencerHub.Proofs.Departures
import SequencerHub.Proofs.Envelopes

/-! What comes back over the wire may come from any server. A call takes it for what it says, and for nothing else. -/
namespace SequencerHub

def HttpResponse.DeniesProvider (x : HttpResponse) : Prop :=
  x.status = 404 ∧ ∃ ms, Http.bodyJson? x.body = some (.object ms) ∧
    Json.get? "error" (.object ms) = some (.string "no_such_provider")

/-- What it means that the outcome of a call is what the response to its request says. `Spells` tells which JSON values
stand for the values of the call. -/
structure HttpResponse.Tells {α : Type} (x : HttpResponse) (base : String) (providerId : UInt16)
    (Spells : α → Json → Prop) (y : Except CallError α) : Prop where
  value : ∀ v, y = .ok v ↔ x.isSuccess ∧ ∃ j, Http.bodyJson? x.body = some j ∧ Envelope.Says Spells (.success v) j
  remote : ∀ e, y = .error (.remote e) ↔
    x.isSuccess ∧ ∃ j, Http.bodyJson? x.body = some j ∧ Envelope.Says Spells (.failure e.kind e.message) j
  noSuchProvider : ∀ id, y = .error (.transport (.noSuchProvider id)) ↔ id = providerId ∧ x.DeniesProvider
  status : ∀ address n, y = .error (.transport (.status address n)) ↔
    address = base ∧ n = x.status ∧ ¬ x.isSuccess ∧ ¬ x.DeniesProvider
  malformed : (∃ reason, y = .error (.malformed reason)) ↔
    x.isSuccess ∧ ∃ j, Http.bodyJson? x.body = some j ∧ ∀ e, ¬ Envelope.Says Spells e j
  undecodable : ∀ address, y = .error (.transport (.undecodable address)) ↔
    address = base ∧ x.isSuccess ∧ Http.bodyJson? x.body = none

namespace Http

variable {base : String} {providerId : UInt16} {x : HttpResponse}

theorem denies_not_success (h : x.DeniesProvider) : ¬ x.isSuccess := by
  simp [HttpResponse.isSuccess, h.1]

theorem denies_iff : x.DeniesProvider ↔ x.status = notFound ∧
    (((bodyJson? x.body).bind (Json.get? "error")).bind Json.string?) = some noSuchProvider := by
  apply and_congr_right
  intro _
  simp only [Option.bind_eq_some_iff]
  constructor
  · rintro ⟨ms, hbody, herror⟩
    exact ⟨_, ⟨_, hbody, herror⟩, rfl⟩
  · rintro ⟨v, ⟨j, hbody, herror⟩, hv⟩
    obtain rfl : v = .string noSuchProvider := by
      cases v <;> simp_all [Json.string?]
    cases j with
    | object ms => exact ⟨ms, hbody, herror⟩
    | _ => cases herror

theorem replyOf_eq_ok {j : Json} : replyOf base providerId x = .ok j ↔ x.isSuccess ∧ bodyJson? x.body = some j := by
  rw [replyOf]
  by_cases hs : x.isSuccess = true
  · rw [if_pos hs]
    cases bodyJson? x.body <;> simp [hs]
  · rw [if_neg hs]
    split <;> simp [hs]

theorem replyOf_eq_error {e : TransportError} : replyOf base providerId x = .error e ↔
    (e = .undecodable base ∧ x.isSuccess ∧ bodyJson? x.body = none) ∨
      (e = .noSuchProvider providerId ∧ x.DeniesProvider) ∨
        (e = .status base x.status ∧ ¬ x.isSuccess ∧ ¬ x.DeniesProvider) := by
  rw [replyOf]
  by_cases hs : x.isSuccess = true
  · have hd : ¬ x.DeniesProvider := fun h => denies_not_success h hs
    rw [if_pos hs]
    cases bodyJson? x.body <;> simp [hs, hd, eq_comm]
  · rw [if_neg hs]
    by_cases hd : x.DeniesProvider
    · rw [if_pos (denies_iff.mp hd)]
      simp [hs, hd, eq_comm]
    · rw [if_neg (mt denies_iff.mpr hd)]
      simp [hs, hd, eq_comm]

end Http

section Settled

variable {α : Type} {p : Payload α} {Spells : α → Json → Prop} {reply : Except TransportError Json}

theorem unwrap_cases (hp : p.Spelled Spells) (j : Json) :
    (∃ reason, unwrap p j = .error (.malformed reason) ∧ ∀ e, ¬ Envelope.Says Spells e j) ∨
      ∃ e, Envelope.Says Spells e j ∧ unwrap p j = e.toResult.mapError .remote ∧
        ∀ e', Envelope.Says Spells e' j → e' = e := by
  cases hd : decodeJson (Envelope.read p) j with
  | error e =>
    refine .inl ⟨e.message, by rw [unwrap, hd], fun e' he' => ?_⟩
    rw [← Envelope.decode_eq_ok hp, hd] at he'
    cases he'
  | ok e =>
    refine .inr ⟨e, (Envelope.decode_eq_ok hp).mp hd, by rw [unwrap, hd], fun e' he' => ?_⟩
    rw [← Envelope.decode_eq_ok hp, hd] at he'
    exact (Except.ok.inj he').symm

theorem unwrap_eq_ok (hp : p.Spelled Spells) {j : Json} {v : α} :
    unwrap p j = .ok v ↔ Envelope.Says Spells (.success v) j := by
  obtain ⟨reason, hj, hno⟩ | ⟨e, he, hj, honly⟩ := unwrap_cases hp j
  · rw [hj]
    exact ⟨nofun, fun h => absurd h (hno _)⟩
  · rw [hj]
    constructor
    · intro h
      cases e with
      | success w => exact Except.ok.inj h ▸ he
      | failure k m => cases h
    · intro h
      rw [← honly _ h]
      rfl

theorem unwrap_eq_remote (hp : p.Spelled Spells) {j : Json} {f : RemoteError} :
    unwrap p j = .error (.remote f) ↔ Envelope.Says Spells (.failure f.kind f.message) j := by
  obtain ⟨reason, hj, hno⟩ | ⟨e, he, hj, honly⟩ := unwrap_cases hp j
  · rw [hj]
    exact ⟨nofun, fun h => absurd h (hno _)⟩
  · rw [hj]
    constructor
    · intro h
      cases e with
      | success w => cases h
      | failure k m =>
        obtain rfl := CallError.remote.inj (Except.error.inj h)
        exact he
    · intro h
      rw [← honly _ h]
      rfl

theorem unwrap_eq_malformed (hp : p.Spelled Spells) {j : Json} :
    (∃ reason, unwrap p j = .error (.malformed reason)) ↔ ∀ e, ¬ Envelope.Says Spells e j := by
  obtain ⟨reason, hj, hno⟩ | ⟨e, he, hj, honly⟩ := unwrap_cases hp j
  · exact ⟨fun _ => hno, fun _ => ⟨reason, hj⟩⟩
  · rw [hj]
    refine ⟨fun ⟨reason, h⟩ => ?_, fun h => absurd he (h e)⟩
    cases e <;> cases h

theorem unwrap_ne_transport {j : Json} {e : TransportError} : unwrap p j ≠ .error (.transport e) := by
  intro h
  rw [unwrap] at h
  cases hd : decodeJson (Envelope.read p) j with
  | error e' =>
    rw [hd] at h
    cases h
  | ok envelope =>
    rw [hd] at h
    cases envelope <;> cases h

/-- What a reply comes to as a call: the failure to get it, or what it says. -/
theorem settled_eq_transport {e : TransportError} : settled p reply = .error (.transport e) ↔ reply = .error e := by
  cases reply with
  | error e' => simp [settled]
  | ok j => simp [settled, unwrap_ne_transport]

theorem settled_eq_iff {y : Except CallError α} (hy : ∀ e, y ≠ .error (.transport e)) :
    settled p reply = y ↔ ∃ j, reply = .ok j ∧ unwrap p j = y := by
  cases reply with
  | error e => simpa [settled] using (hy e).symm
  | ok j => simp [settled]

/-- The outcome of a call is what the response says whose reply it is. -/
theorem tells_replyOf (hp : p.Spelled Spells) (x : HttpResponse) (base : String) (providerId : UInt16) :
    x.Tells base providerId Spells (settled p (Http.replyOf base providerId x)) where
  value v := by
    rw [settled_eq_iff (by simp)]
    simp only [Http.replyOf_eq_ok, unwrap_eq_ok hp, and_assoc, exists_and_left]
  remote e := by
    rw [settled_eq_iff (by simp)]
    simp only [Http.replyOf_eq_ok, unwrap_eq_remote hp, and_assoc, exists_and_left]
  noSuchProvider id := by
    rw [settled_eq_transport, Http.replyOf_eq_error]
    simp
  status address n := by
    rw [settled_eq_transport, Http.replyOf_eq_error]
    simp [and_assoc]
  malformed := by
    constructor
    · rintro ⟨reason, h⟩
      obtain ⟨j, hj, hu⟩ := (settled_eq_iff (by simp)).mp h
      obtain ⟨hs, hbody⟩ := Http.replyOf_eq_ok.mp hj
      exact ⟨hs, j, hbody, (unwrap_eq_malformed hp).mp ⟨reason, hu⟩⟩
    · rintro ⟨hs, j, hbody, hno⟩
      obtain ⟨reason, hu⟩ := (unwrap_eq_malformed hp).mpr hno
      exact ⟨reason, (settled_eq_iff (by simp)).mpr ⟨j, Http.replyOf_eq_ok.mpr ⟨hs, hbody⟩, hu⟩⟩
  undecodable address := by
    rw [settled_eq_transport, Http.replyOf_eq_error]
    simp

end Settled

section Map

variable {α β : Type} {x : HttpResponse} {base : String} {providerId : UInt16} {Spells : α → Json → Prop}
  {y : Except CallError α} {f : α → β}

theorem map_eq_error {c : CallError} : y.map f = .error c ↔ y = .error c := by
  cases y <;> simp [Except.map]

theorem map_eq_ok {b : β} : y.map f = .ok b ↔ ∃ a, f a = b ∧ y = .ok a := by
  cases y <;> simp [Except.map, eq_comm]

/-- A call that makes something else of its value still says what the response says. -/
theorem HttpResponse.Tells.map (ht : x.Tells base providerId Spells y) {Spells' : β → Json → Prop}
    (hs : ∀ b w, Spells' b w ↔ ∃ a, f a = b ∧ Spells a w) : x.Tells base providerId Spells' (y.map f) := by
  have hvalue : ∀ b j, Envelope.Says Spells' (.success b) j ↔ ∃ a, f a = b ∧ Envelope.Says Spells (.success a) j := by
    intro b j
    simp only [Envelope.Says, hs]
    constructor
    · rintro ⟨w, hw, a, ha, hv⟩
      exact ⟨a, ha, w, hw, hv⟩
    · rintro ⟨a, ha, w, hw, hv⟩
      exact ⟨w, hw, a, ha, hv⟩
  have hnone : ∀ j, (∀ e, ¬ Envelope.Says Spells' e j) ↔ ∀ e, ¬ Envelope.Says Spells e j := by
    intro j
    constructor
    · intro h e he
      cases e with
      | success a => exact h (.success (f a)) ((hvalue _ j).mpr ⟨a, rfl, he⟩)
      | failure k m => exact h (.failure k m) he
    · intro h e he
      cases e with
      | success b =>
        obtain ⟨a, -, ha⟩ := (hvalue b j).mp he
        exact h _ ha
      | failure k m => exact h (.failure k m) he
  refine ⟨fun b => ?_, fun e => map_eq_error.trans (ht.remote e), fun id => map_eq_error.trans (ht.noSuchProvider id),
    fun address n => map_eq_error.trans (ht.status address n), ?_,
    fun address => map_eq_error.trans (ht.undecodable address)⟩
  · rw [map_eq_ok]
    simp only [ht.value, hvalue]
    constructor
    · rintro ⟨a, ha, hsuccess, j, hj, hsays⟩
      exact ⟨hsuccess, j, hj, a, ha, hsays⟩
    · rintro ⟨hsuccess, j, hj, a, ha, hsays⟩
      exact ⟨a, ha, hsuccess, j, hj, hsays⟩
  · simp only [map_eq_error, ht.malformed, hnone]

end Map

namespace Hub

def Receives (h : Hub) (base : String) (providerId : UInt16) (r : Request) (x : HttpResponse) : Prop :=
  h.serverAt? base = none ∧ h.fetch? (Http.rpcUrl base providerId) (Http.rpcRequest providerId r) = some x

section Receives

variable {h : Hub} {base : String} {providerId : UInt16} {r : Request} {x : HttpResponse}

theorem Within.receives {h' : Hub} (hw : Within h h') (hr : h.Receives base providerId r x) :
    h'.Receives base providerId r x := by
  obtain ⟨hserver, hfetch⟩ := hr
  exact ⟨by rwa [serverAt?, hw.served], by rwa [fetch?, hw.online, hw.elsewhere]⟩

theorem send_of_receives (hr : h.Receives base providerId r x) :
    h.send (.http base) providerId r = (h, .replied (Http.replyOf base providerId x)) := by
  obtain ⟨hserver, hfetch⟩ := hr
  simp only [send, sendHttp, hserver, fetchReply, hfetch]
  cases h.online <;> rfl

theorem forward_of_receives (hr : h.Receives base providerId r x) :
    (h.forward (.http base) providerId r).2 = some (Http.replyOf base providerId x) := by
  have hw : Within h h.settle := h.advanceAll_within _
  rw [forward_eq, send_of_receives (hw.receives hr)]
  rfl

theorem callAt_of_receives {α : Type} (p : Payload α) (address : String) (hr : h.Receives base providerId r x) :
    (h.callAt p ⟨address, .http base⟩ providerId r).2 = some (settled p (Http.replyOf base providerId x)) := by
  simp only [callAt, forward_of_receives hr, Option.map_some]

end Receives

section Replied

variable {h : Hub} {k : Nat} {y : Except TransportError Json}

theorem advance_replied (hy : h.tasks[k]? = some (.replied y)) (j : Nat) :
    (h.advance j).tasks[k]? = some (.replied y) := by
  by_cases hj : j = k
  · subst hj
    rw [h.advance_self hy, run]
  · rw [h.advance_other hj, hy]

theorem step_replied (hy : h.tasks[k]? = some (.replied y)) (m : Move) :
    (h.step m).tasks[k]? = some (.replied y) := by
  by_cases hm : ∃ gate, m = .openGate gate
  · obtain ⟨gate, rfl⟩ := hm
    have hopen : ({ h with opened := gate :: h.opened.filter (· ≠ gate) }).tasks[k]? = some (.replied y) := hy
    exact List.foldlRecOn (motive := fun h' => h'.tasks[k]? = some (.replied y)) _ advance hopen
      fun h' hy' j _ => advance_replied hy' j
  · have hgate : ∀ gate, m ≠ .openGate gate := fun gate heq => hm ⟨gate, heq⟩
    obtain ⟨-, hstep⟩ | ⟨-, hstep⟩ := step_task_cases hgate hy
    · exact hstep
    · exact hstep

theorem steps_replied (hy : h.tasks[k]? = some (.replied y)) (ms : List Move) :
    (h.steps ms).tasks[k]? = some (.replied y) := by
  induction ms generalizing h with
  | nil => exact hy
  | cons m ms ih => exact ih (step_replied hy m)

end Replied

/-- What it means that calls to a server elsewhere say what comes back from there. -/
structure TellsResponses (h : Hub) (address base : String) (providerId : UInt16) : Prop where
  construct : ∀ how sequencerType config token x,
    h.Receives base providerId (.construct how token sequencerType config) x →
      ∃ y, (Admin.construct h how address providerId sequencerType config token).2 = some y ∧
        x.Tells base providerId Json.SpellsId y
  close : ∀ id token x, h.Receives base providerId (.close token id) x →
    ∃ y, (Admin.close h address providerId id token).2 = some y ∧
      x.Tells base providerId (fun _ w => ∃ b, w = .bool b) y
  destroy : ∀ id token x, h.Receives base providerId (.destroy token id) x →
    ∃ y, (Admin.destroy h address providerId id token).2 = some y ∧
      x.Tells base providerId (fun b w => w = .bool b) y
  bind : ∀ id x, h.Receives base providerId (.check id) x →
    ∃ y, (Handle.bind h address providerId id true).2 = some y ∧
      x.Tells base providerId (fun s w => s = ⟨⟨address, .http base⟩, providerId, id⟩ ∧ ∃ b, w = .bool b) y
  computeSum : ∀ id m n x, h.Receives base providerId (.computeSum id m n) x →
    ∃ y, (Handle.computeSum h ⟨⟨address, .http base⟩, providerId, id⟩ m n).2 = some y ∧
      x.Tells base providerId (fun sum w => w = .ofInt32 sum) y
  /-- An addition in the background has its result from when its request leaves, and keeps it. -/
  computeSumLater : ∀ id m n x ms ms',
    let s : Handle := ⟨⟨address, .http base⟩, providerId, id⟩
    let b : Background := (s.computeSumLater h m n).2
    let g : Hub := (s.computeSumLater h m n).1.steps ms
    g.tasks[b.task]? = some (.sending (.http base) providerId (.computeSum id m n)) →
      g.Receives base providerId (.computeSum id m n) x →
        ∃ y, b.result? ((g.advance b.task).steps ms') = some y ∧
          x.Tells base providerId (fun sum w => w = .ofInt32 sum) y
  sayHello : ∀ id x, h.Receives base providerId (.sayHello id) x →
    ∃ y, (Handle.sayHello h ⟨⟨address, .http base⟩, providerId, id⟩).2 = some y ∧
      (y = .ok () ↔ x.isSuccess ∧ ∃ j, Http.bodyJson? x.body = some j)
  shutdown : ∀ x, h.serverAt? base = none → h.fetch? (Http.shutdownUrl base) Http.shutdownRequest = some x →
    (Admin.shutdown h address).2 = if x.isSuccess then .ok () else .error (.transport (.status base x.status))

/-- Whatever server is at an address, and whatever it responds, calls say that and nothing else. -/
theorem responses_told {h : Hub} {address base : String} (hl : h.lookup address = .ok ⟨address, .http base⟩)
    (providerId : UInt16) : h.TellsResponses address base providerId where
  construct how sequencerType config token x hr := by
    rw [construct_snd, call, hl]
    exact ⟨_, callAt_of_receives .id address hr, tells_replyOf Payload.id_spelled x base providerId⟩
  close id token x hr := by
    simp only [Admin.close, call, hl, callAt_of_receives .boolean address hr, Option.map_some]
    exact ⟨_, rfl, (tells_replyOf Payload.boolean_spelled x base providerId).map (by simp)⟩
  destroy id token x hr := by
    rw [Admin.destroy, call, hl]
    exact ⟨_, callAt_of_receives .boolean address hr, tells_replyOf Payload.boolean_spelled x base providerId⟩
  bind id x hr := by
    simp only [Handle.bind, hl, if_true, callAt_of_receives .boolean address hr, Option.map_some]
    exact ⟨_, rfl, (tells_replyOf Payload.boolean_spelled x base providerId).map (by simp [eq_comm])⟩
  computeSum id m n x hr :=
    ⟨_, callAt_of_receives .int32 address hr, tells_replyOf Payload.int32_spelled x base providerId⟩
  computeSumLater id m n x ms ms' := by
    intro s b g hsending hr
    have hreplied : (g.advance b.task).tasks[b.task]? = some (.replied (Http.replyOf base providerId x)) := by
      rw [g.advance_self hsending, run, send_of_receives hr]
    refine ⟨_, ?_, tells_replyOf Payload.int32_spelled x base providerId⟩
    rw [Background.result?, reply?, steps_replied hreplied ms']
    rfl
  sayHello id x hr := by
    simp only [Handle.sayHello, forward_of_receives hr, Option.map_some]
    have hreply : (∃ j, Http.replyOf base providerId x = .ok j) ↔
        x.isSuccess ∧ ∃ j, Http.bodyJson? x.body = some j := by
      simp only [Http.replyOf_eq_ok, exists_and_left]
    refine ⟨_, rfl, ?_⟩
    rw [← hreply]
    cases Http.replyOf base providerId x <;> simp
  shutdown x hserver hfetch := by
    have hasked : h.shutdownAt ⟨address, .http base⟩ =
        (h, (Http.shutdownReply base x).mapError .transport) := by
      simp only [shutdownAt, hserver, hfetch]
      cases h.online <;> rfl
    rw [Admin.shutdown, hl]
    simp only [hasked, Http.shutdownReply]
    by_cases hs : x.isSuccess = true
    · simp [hs, Except.mapError]
    · simp [hs, Except.mapError]

/-- A client where every server answers that it does not know the page. -/
def abroad : Hub where
  online := true
  elsewhere _ _ := some ⟨404, none, none, []⟩
  ledger := { supply := SequencerId.ofNat }

theorem responses_told_abroad :
    abroad.lookup "http://127.0.0.1:8087/" = .ok ⟨"http://127.0.0.1:8087/", .http "http://127.0.0.1:8087"⟩ ∧
      abroad.Receives "http://127.0.0.1:8087" 0 (.check (.ofNat 1)) ⟨404, none, none, []⟩ ∧
        abroad.TellsResponses "http://127.0.0.1:8087/" "http://127.0.0.1:8087" 0 := by
  have hl : abroad.lookup "http://127.0.0.1:8087/" =
      .ok ⟨"http://127.0.0.1:8087/", .http "http://127.0.0.1:8087"⟩ := by decide
  exact ⟨hl, ⟨rfl, rfl⟩, responses_told hl 0⟩

end Hub
end SequencerHub
