import SequencerHub.Proofs.HubCustody
import SequencerHub.Proofs.Transports

/-! Who asks hosts for something, over the wire or by a local address, and what has become of it. A handler begins a
task for a request and joins it; the task goes on by itself, whether or not anybody still waits for it. -/
namespace SequencerHub

inductive Entrance
  | http (host : Nat) (r : HttpRequest)
  | named (address : String) (providerId : UInt16) (q : Request)
  | shutdown (address : String)

inductive Response
  | http (r : HttpResponse)
  | reply (r : Except TransportError Json)
  | stopped (r : Except CallError Unit)

/-- How far the handler of a request has got. -/
inductive Stage
  /-- The request is on its way, and no handler has begun. -/
  | arriving
  | joining (task : Nat) (providerId : UInt16)
  | answered (r : Response)
  /-- Nobody waits any more. The task that was left goes on. -/
  | gone (task : Option Nat)

structure Guest where
  entrance : Entrance
  stage : Stage

structure Reception where
  hub : Hub
  guests : List Guest := []

namespace Stage

def HasBegun : Stage → Prop
  | arriving => False
  | _ => True

instance (s : Stage) : Decidable s.HasBegun := by
  unfold HasBegun
  split <;> infer_instance

def hungUp : Stage → Stage
  | arriving => gone none
  | joining task _ => gone (some task)
  | s => s

end Stage

def Entrance.respond (providerId : UInt16) (reply : Except TransportError Json) : Entrance → Response
  | http .. => .http (Http.respond providerId reply.toOption)
  | _ => .reply reply

namespace Hub

/-- Begins a task for a request to a host, to be joined. -/
def spawn (h : Hub) (n : Nat) (providerId : UInt16) (q : Request) : Hub × Stage :=
  ((h.start (.sending (.direct n) providerId q)).1, .joining h.tasks.length providerId)

/-- What a handler does up to where it has to wait. -/
def receive (h : Hub) : Entrance → Hub × Stage
  | .http n r =>
    match Http.routed r with
    | .respond response => (h, .answered (.http response))
    | .shutdown => (h.stop n, .answered (.http Http.accepted))
    | .rpc providerId q => h.spawn n providerId q
  | .named address providerId q =>
    match h.hostAt? address with
    | none => (h, .answered (.reply (.error (.unknownAddress address))))
    | some n => h.spawn n providerId q
  | .shutdown address =>
    let asked := h.shutdownAt ⟨address, .named address⟩
    (asked.1, .answered (.stopped asked.2))

/-- A handler that begins does nothing to the hub, stops a host, or begins a task and joins it. -/
theorem receive_cases (h : Hub) (e : Entrance) :
    (h.receive e).1 = h ∨ (∃ n, (h.receive e).1 = h.step (.stop n)) ∨ ∃ n id q, h.receive e = h.spawn n id q := by
  cases e with
  | http n r =>
    simp only [receive]
    split
    · exact .inl rfl
    · exact .inr (.inl ⟨n, rfl⟩)
    · exact .inr (.inr ⟨_, _, _, rfl⟩)
  | named address providerId q =>
    simp only [receive]
    split
    · exact .inl rfl
    · exact .inr (.inr ⟨_, _, _, rfl⟩)
  | shutdown address =>
    simp only [receive, shutdownAt]
    split
    · exact .inr (.inl ⟨_, rfl⟩)
    · exact .inl rfl

theorem receive_rpcRequest (h : Hub) (n : Nat) (providerId : UInt16) (q : Request) :
    h.receive (.http n (Http.rpcRequest providerId q)) = h.spawn n providerId q := by
  simp only [receive, Http.routed_rpcRequest]

/-- Drops the handler of a request, and with it what the handler has joined. -/
def leave (abandon : Task → Task) (h : Hub) : Stage → Hub
  | .joining task _ => { h with tasks := h.tasks.modify task abandon }
  | _ => h

/-- A server that has been asked to stop takes no further request. -/
def admits (h : Hub) : Entrance → Bool
  | .http n _ => !(h.hosts[n]?).any (·.stopping)
  | _ => true

end Hub

namespace Reception

inductive Move
  /-- Something happens between hosts. No more than one task goes on by it. -/
  | hub (m : Hub.Move) (single : ∀ gate, m ≠ .openGate gate)
  | gates (opened : Gates)
  | arrive (e : Entrance)
  | handle (n : Nat)
  | answer (n : Nat)
  | hangUp (n : Nat)

def opening (supply : Nat → SequencerId) : Reception where
  hub := { ledger := { supply } }

def arrive (s : Reception) (e : Entrance) : Reception :=
  { s with guests := s.guests ++ [⟨e, if s.hub.admits e then .arriving else .gone none⟩] }

def handle (s : Reception) (n : Nat) : Reception :=
  match s.guests[n]? with
  | some ⟨e, .arriving⟩ => { hub := (s.hub.receive e).1, guests := s.guests.set n ⟨e, (s.hub.receive e).2⟩ }
  | _ => s

def answered (h : Hub) (g : Guest) : Guest :=
  match g with
  | ⟨e, .joining task providerId⟩ =>
    match h.reply? task with
    | some reply => ⟨e, .answered (e.respond providerId reply)⟩
    | none => g
  | g => g

def answer (s : Reception) (n : Nat) : Reception := { s with guests := s.guests.modify n (answered s.hub) }

/-- Whoever hangs up does so only when a handler has begun. -/
def Allows (s : Reception) : Move → Prop
  | .hangUp n => ∀ g ∈ s.guests[n]?, g.stage.HasBegun
  | _ => True

section Run

variable (abandon : Task → Task)

/-- A runtime that lets a task go on by itself when nobody waits for it. -/
def Detaches : Prop := ∀ t, abandon t = t

def hangUp (s : Reception) (n : Nat) : Reception :=
  match s.guests[n]? with
  | some g => { hub := s.hub.leave abandon g.stage, guests := s.guests.set n ⟨g.entrance, g.stage.hungUp⟩ }
  | none => s

def step (s : Reception) : Move → Reception
  | .hub m _ => { s with hub := s.hub.step m }
  | .gates opened => { s with hub := { s.hub with opened } }
  | .arrive e => s.arrive e
  | .handle n => s.handle n
  | .answer n => s.answer n
  | .hangUp n => s.hangUp abandon n

def run (s : Reception) (ms : List Move) : Reception := ms.foldl (step abandon) s

/-- Nobody hangs up before a handler has begun. -/
def Late (s : Reception) : List Move → Prop
  | [] => True
  | m :: ms => s.Allows m ∧ Late (s.step abandon m) ms

instance (s : Reception) (m : Move) : Decidable (s.Allows m) := by
  unfold Allows
  split <;> infer_instance

instance decidableLate (s : Reception) : (ms : List Move) → Decidable (s.Late abandon ms)
  | [] => inferInstanceAs (Decidable True)
  | m :: ms =>
    have := decidableLate (s.step abandon m) ms
    inferInstanceAs (Decidable (_ ∧ _))

end Run

def Move.isHangUp : Move → Bool
  | hangUp _ => true
  | _ => false

/-- What every move of a run preserves holds at its end. -/
theorem run_induction {abandon : Task → Task} {P : Reception → Prop} {ms : List Move}
    (hstep : ∀ s, ∀ m ∈ ms, P s → P (s.step abandon m)) {s : Reception} (h : P s) : P (s.run abandon ms) := by
  induction ms generalizing s with
  | nil => exact h
  | cons m ms ih =>
    exact ih (fun s m hm => hstep s m (List.mem_cons_of_mem _ hm)) (hstep s m List.mem_cons_self h)

theorem run_append {abandon : Task → Task} (s : Reception) (ms ms' : List Move) :
    s.run abandon (ms ++ ms') = (s.run abandon ms).run abandon ms' := List.foldl_append

theorem late_of_not_isHangUp {abandon : Task → Task} {ms : List Move} (h : ∀ m ∈ ms, m.isHangUp = false)
    (s : Reception) : s.Late abandon ms := by
  induction ms generalizing s with
  | nil => trivial
  | cons m ms ih =>
    refine ⟨?_, ih (fun m hm => h m (List.mem_cons_of_mem _ hm)) _⟩
    cases m with
    | hangUp n => cases h _ List.mem_cons_self
    | _ => trivial

theorem Late.append {abandon : Task → Task} {s : Reception} {ms ms' : List Move} (h : s.Late abandon ms)
    (h' : (s.run abandon ms).Late abandon ms') : s.Late abandon (ms ++ ms') := by
  induction ms generalizing s with
  | nil => exact h'
  | cons m ms ih => exact ⟨h.1, ih h.2 h'⟩

theorem run_come (abandon : Task → Task) (s : Reception) {e : Entrance} (he : s.hub.admits e = true) :
    s.run abandon [.arrive e, .handle s.guests.length] =
      { hub := (s.hub.receive e).1, guests := s.guests ++ [⟨e, (s.hub.receive e).2⟩] } := by
  simp [run, step, arrive, handle, he]

/-- A request has come over the wire, and its handler has begun a task for it. -/
def asked (s : Reception) (n : Nat) (providerId : UInt16) (q : Request) : Reception where
  hub := (s.hub.spawn n providerId q).1
  guests := s.guests ++ [⟨.http n (Http.rpcRequest providerId q), .joining s.hub.tasks.length providerId⟩]

theorem run_asked (abandon : Task → Task) (s : Reception) (n : Nat) (providerId : UInt16) (q : Request)
    (hn : s.hub.admits (.http n (Http.rpcRequest providerId q)) = true) :
    s.run abandon [.arrive (.http n (Http.rpcRequest providerId q)), .handle s.guests.length] =
      s.asked n providerId q := by
  rw [run_come abandon s hn, Hub.receive_rpcRequest]
  rfl

section At

variable {s : Reception} {n : Nat} {g : Guest}

theorem handle_of_hasBegun (h : ∀ g ∈ s.guests[n]?, g.stage.HasBegun) : s.handle n = s := by
  simp only [handle]
  split
  · rename_i e hg
    exact (h _ hg).elim
  · rfl

theorem Detaches.leave {abandon : Task → Task} (hd : Detaches abandon) (h : Hub) (stage : Stage) :
    h.leave abandon stage = h := by
  have habandon : abandon = id := funext hd
  cases stage with
  | joining task providerId => simp only [Hub.leave, habandon, List.modify_id]
  | _ => rfl

theorem Detaches.hub_hangUp {abandon : Task → Task} (hd : Detaches abandon) (s : Reception) (n : Nat) :
    (s.hangUp abandon n).hub = s.hub := by
  simp only [hangUp]
  split
  · exact hd.leave s.hub _
  · rfl

theorem set_guest (hg : s.guests[n]? = some g) : s.guests.set n g = s.guests := by
  obtain ⟨hn, rfl⟩ := List.getElem?_eq_some_iff.mp hg
  exact List.set_getElem_self hn

end At

/-- What becomes of one who may have hung up, and of the same one if nobody had hung up. -/
inductive Alike : Guest → Guest → Prop
  | same (g : Guest) : Alike g g
  | joining (e : Entrance) (task : Nat) (providerId : UInt16) :
      Alike ⟨e, .gone (some task)⟩ ⟨e, .joining task providerId⟩
  | answered (e : Entrance) (task : Option Nat) (r : Response) : Alike ⟨e, .gone task⟩ ⟨e, .answered r⟩

/-- Two receptions that differ at most in whether some still wait. -/
structure Parted (left : Nat → Prop) (s s' : Reception) : Prop where
  hub : s'.hub = s.hub
  guests : List.Forall₂ Alike s.guests s'.guests
  stayed : ∀ n, ¬ left n → s'.guests[n]? = s.guests[n]?

section Parted

variable {abandon : Task → Task} {left : Nat → Prop} {s s' : Reception}

theorem Parted.refl (left : Nat → Prop) (s : Reception) : Parted left s s :=
  ⟨rfl, List.forall₂_same.mpr fun g _ => .same g, fun _ _ => rfl⟩

theorem Parted.set (h : Parted left s s') {n : Nat} {g g' : Guest} (hg : Alike g g') (hn : ¬ left n → g' = g)
    {hub hub' : Hub} (hh : hub' = hub) : Parted left ⟨hub, s.guests.set n g⟩ ⟨hub', s'.guests.set n g'⟩ := by
  refine ⟨hh, Hub.forall₂_set h.guests hg n, fun k hk => ?_⟩
  have hstay := h.stayed k hk
  rcases eq_or_ne n k with rfl | hne
  · simp only [List.getElem?_set_self', hn hk, hstay]
  · simpa only [List.getElem?_set_ne hne] using hstay

theorem Parted.hangUp (hd : Detaches abandon) (h : Parted left s s') {n : Nat} (hn : left n)
    (ha : s.Allows (.hangUp n)) : Parted left (s.hangUp abandon n) s' := by
  obtain ⟨hx, -⟩ | ⟨g, g', hx, hy, hg⟩ := Hub.forall₂_getElem? h.guests n
  · simp only [Reception.hangUp, hx]
    exact h
  · have hbegun : g.stage.HasBegun := ha g hx
    have hleft : Alike ⟨g.entrance, g.stage.hungUp⟩ g' := by
      cases hg with
      | same =>
        obtain ⟨e, stage⟩ := g
        cases stage with
        | arriving => exact hbegun.elim
        | joining task providerId => exact .joining e task providerId
        | answered r => exact .same _
        | gone task => exact .same _
      | joining e task providerId => exact .joining e task providerId
      | answered e task r => exact .answered e task r
    have hset := h.set hleft (fun hn' => absurd hn hn') h.hub
    rw [set_guest hy] at hset
    simp only [Reception.hangUp, hx, hd.leave]
    exact hset

theorem Parted.arrive (h : Parted left s s') (e : Entrance) : Parted left (s.arrive e) (s'.arrive e) := by
  refine ⟨h.hub, ?_, fun n hn => ?_⟩
  · simp only [Reception.arrive, h.hub]
    exact List.rel_append h.guests (.cons (.same _) .nil)
  · have hlen : s'.guests.length = s.guests.length := h.guests.length_eq.symm
    simp only [Reception.arrive, h.hub, List.getElem?_append, hlen, h.stayed n hn]

theorem Parted.handle (h : Parted left s s') (n : Nat) : Parted left (s.handle n) (s'.handle n) := by
  obtain ⟨hx, hy⟩ | ⟨g, g', hx, hy, hg⟩ := Hub.forall₂_getElem? h.guests n
  · simp only [Reception.handle, hx, hy]
    exact h
  · by_cases hbegun : g.stage.HasBegun ∧ g'.stage.HasBegun
    · rw [handle_of_hasBegun (by simpa [hx] using hbegun.1), handle_of_hasBegun (by simpa [hy] using hbegun.2)]
      exact h
    · cases hg with
      | same =>
        obtain ⟨e, stage⟩ := g
        cases stage with
        | arriving =>
          simp only [Reception.handle, hx, hy, h.hub]
          exact h.set (.same _) (fun _ => rfl) rfl
        | _ => exact absurd ⟨trivial, trivial⟩ hbegun
      | joining => exact absurd ⟨trivial, trivial⟩ hbegun
      | answered => exact absurd ⟨trivial, trivial⟩ hbegun

/-- Only one who still waits is given the response. -/
theorem Alike.respond {g g' : Guest} (hg : Alike g g') (h : Hub) :
    Alike (Reception.answered h g) (Reception.answered h g') := by
  cases hg with
  | same g => exact .same _
  | joining e task providerId =>
    simp only [Reception.answered]
    split
    · exact .answered e (some task) _
    · exact .joining e task providerId
  | answered e task r => exact .answered e task r

theorem Parted.answer (h : Parted left s s') (n : Nat) : Parted left (s.answer n) (s'.answer n) := by
  obtain ⟨hx, hy⟩ | ⟨g, g', hx, hy, hg⟩ := Hub.forall₂_getElem? h.guests n
  · simp only [Reception.answer, List.modify_eq_set_getElem?, hx, hy]
    exact h
  · have hsame : ¬ left n → g' = g := fun hn => by
      have hstay := h.stayed n hn
      rwa [hx, hy, Option.some.injEq] at hstay
    simp only [Reception.answer, List.modify_eq_set_getElem?, hx, hy, h.hub]
    exact h.set (hg.respond s.hub) (fun hn => congrArg _ (hsame hn)) rfl

/-- What is not a hanging up happens in both. -/
theorem Parted.step (h : Parted left s s') {m : Move} (hm : m.isHangUp = false) :
    Parted left (s.step abandon m) (s'.step abandon m) := by
  cases m with
  | hub m single => exact ⟨congrArg (·.step m) h.hub, h.guests, h.stayed⟩
  | gates opened => exact ⟨congrArg (fun h : Hub => { h with opened }) h.hub, h.guests, h.stayed⟩
  | arrive e => exact h.arrive e
  | handle n => exact h.handle n
  | answer n => exact h.answer n
  | hangUp n => cases hm

theorem Parted.run (hd : Detaches abandon) (h : Parted left s s') {ms : List Move} (hl : s.Late abandon ms)
    (hn : ∀ n, .hangUp n ∈ ms → left n) :
    Parted left (s.run abandon ms) (s'.run abandon (ms.filter fun m => !m.isHangUp)) := by
  induction ms generalizing s s' with
  | nil => exact h
  | cons m ms ih =>
    obtain ⟨ha, hl⟩ := hl
    have hn' : ∀ n, .hangUp n ∈ ms → left n := fun n hmem => hn n (List.mem_cons_of_mem m hmem)
    cases hm : m.isHangUp with
    | false =>
      rw [List.filter_cons_of_pos (by simp [hm])]
      exact ih (h.step hm) hl hn'
    | true =>
      rw [List.filter_cons_of_neg (by simp [hm])]
      cases m with
      | hangUp n => exact ih (h.hangUp hd (hn n List.mem_cons_self) ha) hl hn'
      | _ => cases hm

end Parted

section Custody

variable {abandon : Task → Task} {s : Reception}

theorem receive_conserves {h : Hub} (hs : h.Sound) (e : Entrance) : Hub.Conserves h (h.receive e).1 := by
  obtain heq | ⟨n, heq⟩ | ⟨n, id, q, heq⟩ := h.receive_cases e
  · rw [heq]
    exact .refl hs
  · rw [heq]
    exact hs.step (.stop n)
  · rw [heq]
    exact hs.step (.send (.direct n) id q)

theorem step_conserves (hd : Detaches abandon) (hs : s.hub.Sound) (m : Move) :
    Hub.Conserves s.hub (s.step abandon m).hub := by
  cases m with
  | hub m single => exact hs.step m
  | gates opened => exact .of_eq hs rfl rfl (.refl _)
  | arrive e => exact .refl hs
  | handle n =>
    simp only [step, handle]
    split
    · exact receive_conserves hs _
    · exact .refl hs
  | answer n => exact .refl hs
  | hangUp n =>
    rw [step, hd.hub_hangUp]
    exact .refl hs

theorem run_conserves (hd : Detaches abandon) (hs : s.hub.Sound) (ms : List Move) :
    Hub.Conserves s.hub (s.run abandon ms).hub :=
  run_induction (P := fun s' => Hub.Conserves s.hub s'.hub)
    (fun _ m _ hc => hc.trans (step_conserves hd (hs.of_conserves hc) m)) (.refl hs)

/-- The task of a request to destroy a sequencer takes an instance out of a registry in a run. -/
def Unregisters (abandon : Task → Task) (s : Reception) (ms : List Move) (k : Nat) (i : Instance) : Prop :=
  ∃ before single after, ms = before ++ .hub (.advance k) single :: after ∧
    (s.run abandon before).hub.unregisters? k = some i

/-- What a request to destroy a sequencer takes out of a registry is destroyed exactly once, and never registered
again. -/
theorem Unregisters.destroyed_once (hd : Detaches abandon) {ms : List Move} {k : Nat} {i : Instance}
    (hu : s.Unregisters abandon ms k i) (hs : s.hub.Sound) :
    (s.run abandon ms).hub.ledger.destroyed.count i.serial = 1 ∧ i.serial ∉ (s.run abandon ms).hub.registered := by
  obtain ⟨before, single, after, rfl, hu⟩ := hu
  have hbefore := hs.of_conserves (run_conserves hd hs before)
  have hstep := hbefore.of_conserves (hbefore.advance k)
  have hafter := run_conserves (s := (s.run abandon before).step abandon (.hub (.advance k) single)) hd hstep after
  rw [run, List.foldl_append, List.foldl_cons]
  exact hafter.destroyed_once hstep (Hub.destroyed_of_unregisters? hu)

theorem opening_sound (supply : Nat → SequencerId) : (opening supply).hub.Sound :=
  ⟨fun _ h => absurd h List.not_mem_nil, List.nodup_nil, fun _ h => absurd h List.not_mem_nil⟩

end Custody

/-- What it means that nobody notices who hangs up in a run. -/
structure Unnoticed (abandon : Task → Task) (s : Reception) (ms : List Move) : Prop where
  /-- The registries, the calls of backends and all tasks are as if nobody had hung up. -/
  hub : (s.run abandon ms).hub = (s.run abandon (ms.filter fun m => !m.isHangUp)).hub
  /-- Whoever does not hang up is given the same response, or waits as long. -/
  stayed : ∀ n, .hangUp n ∉ ms →
    (s.run abandon ms).guests[n]? = (s.run abandon (ms.filter fun m => !m.isHangUp)).guests[n]?
  destroyed : ∀ k i, s.Unregisters abandon ms k i →
    (s.run abandon ms).hub.ledger.destroyed.count i.serial = 1 ∧ i.serial ∉ (s.run abandon ms).hub.registered

/-- Whoever hangs up once a handler has begun leaves no trace but the response that is not given. -/
theorem hangUps_unnoticed {abandon : Task → Task} (hd : Detaches abandon) (supply : Nat → SequencerId) (ms : List Move)
    (hl : (opening supply).Late abandon ms) : Unnoticed abandon (opening supply) ms := by
  have hp := (Parted.refl (fun n => .hangUp n ∈ ms) (opening supply)).run hd hl fun _ hn => hn
  exact ⟨hp.hub.symm, fun n hn => (hp.stayed n hn).symm, fun k i hu => hu.destroyed_once hd (opening_sound supply)⟩

/-- A sequencer is created, and whoever asks for its destruction hangs up while the destruction waits. -/
def impatient : List Move :=
  [.hub (.addHost "local://trials") nofun, .hub (.bind 0) nofun,
    .hub (.provide 0 {} (Factory.register {} "scripted" (Scripted.constructors "scripted"))) nofun,
    .arrive (.named "local://trials" 0 (.construct .create "" "scripted" "\x7b\"destroy\":\x7b\"gate\":\"G\"\x7d\x7d")),
    .handle 0, .hub (.advance 0) nofun, .answer 0,
    .arrive (.http 0 (Http.rpcRequest 0 (.destroy "" (SequencerId.ofNat 0)))), .handle 1, .hub (.advance 1) nofun,
    .hangUp 1, .gates ["G"], .hub (.advance 1) nofun]

def hosted : Reception := (opening SequencerId.ofNat).run id (impatient.take 7)

theorem run_impatient (abandon : Task → Task) : (opening SequencerId.ofNat).run abandon (impatient.take 9) =
    hosted.asked 0 0 (.destroy "" (SequencerId.ofNat 0)) := by
  have hask := run_asked abandon hosted 0 0 (.destroy "" (SequencerId.ofNat 0)) rfl
  have hguests : hosted.guests.length = 1 := by decide +kernel
  rw [← hask, hguests]
  rfl

theorem late_impatient : (opening SequencerId.ofNat).Late id impatient := by
  rw [← List.take_append_drop 9 impatient]
  refine (late_of_not_isHangUp (by decide) _).append ?_
  rw [run_impatient]
  decide +kernel

theorem hangUps_unnoticed_impatient : Detaches id ∧ (opening SequencerId.ofNat).Late id impatient ∧
    Unnoticed id (opening SequencerId.ofNat) impatient :=
  ⟨fun _ => rfl, late_impatient, hangUps_unnoticed (fun _ => rfl) SequencerId.ofNat impatient late_impatient⟩

/-- A runtime that ended what is abandoned would cut the destruction short. -/
example : LogEvent.destroyed 0 (SequencerId.ofNat 0) true ∉
    ((opening SequencerId.ofNat).run (fun _ => .replied (.error (.noSuchProvider 0))) impatient).hub.ledger.log := by
  rw [← List.take_append_drop 9 impatient, run_append, run_impatient]
  decide +kernel

/-- A sequencer is created, and somebody asks for its destruction. -/
def doomed : List Move :=
  [.hub (.addHost "local://trials") nofun,
    .hub (.provide 0 {} (Factory.register {} "scripted" (Scripted.constructors "scripted"))) nofun,
    .hub (.listen 0 "127.0.0.1:8087") nofun,
    .arrive (.http 0 (Http.rpcRequest 0
      (.construct .create "" "scripted" "\x7b\"destroy\":\x7b\"gate\":\"G\"\x7d\x7d"))),
    .handle 0, .hub (.advance 0) nofun, .answer 0,
    .arrive (.http 0 (Http.rpcRequest 0 (.destroy "" (SequencerId.ofNat 0)))), .handle 1]

def created : Reception :=
  (((opening SequencerId.ofNat).run id (doomed.take 3)).asked 0 0
    (.construct .create "" "scripted" "\x7b\"destroy\":\x7b\"gate\":\"G\"\x7d\x7d")).run id
      [.hub (.advance 0) nofun, .answer 0]

theorem run_doomed : (opening SequencerId.ofNat).run id doomed =
    created.asked 0 0 (.destroy "" (SequencerId.ofNat 0)) := by
  have hcreate := run_asked id ((opening SequencerId.ofNat).run id (doomed.take 3)) 0 0
    (.construct .create "" "scripted" "\x7b\"destroy\":\x7b\"gate\":\"G\"\x7d\x7d") rfl
  have hdestroy := run_asked id created 0 0 (.destroy "" (SequencerId.ofNat 0)) (by decide +kernel)
  have hguests : created.guests.length = 1 := by decide +kernel
  rw [← hdestroy, hguests, created, ← hcreate, ← run_append, ← run_append, ← run_append]
  rfl

/-- While the destruction waits, whoever asked for it hangs up, and the server is asked to stop. -/
def forsaken : List Move := doomed ++ [.hub (.advance 1) nofun, .hangUp 1, .hub (.cancel 0) nofun]

end Reception
end SequencerHub
