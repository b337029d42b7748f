import SequencerHub.Proofs.LogFrame

/-! Administrative requests without the right token have no effect and learn nothing. If they are deleted from a run,
all other requests get the same answers, the backends see the same, and the registry is the same. -/
namespace SequencerHub

/-- Whether a request shows a token that is not the one of a protected provider. -/
def Provider.Denies (p : Provider) (r : Request) : Prop :=
  p.options.token ≠ "" ∧ ∃ token ∈ r.token?, token ≠ p.options.token

instance (p : Provider) (r : Request) : Decidable (p.Denies r) := by
  unfold Provider.Denies
  infer_instance

def Work.IsDenied : Work → Prop
  | ended (.answered (.error e)) => e.kind = .auth
  | _ => False

@[simp] theorem Work.refused_isDenied (e : RemoteError) : (Work.refused e).IsDenied ↔ e.kind = .auth := .rfl

/-- The elements at the places that are to stay. -/
def sift {α : Type} : List Bool → List α → List α
  | true :: kept, x :: xs => x :: sift kept xs
  | false :: kept, _ :: xs => sift kept xs
  | _, _ => []

/-- The place of an element among those that stay. -/
def place : List Bool → Nat → Nat
  | true :: kept, n + 1 => place kept n + 1
  | false :: kept, n + 1 => place kept n
  | _, _ => 0

section Sift

variable {α : Type}

theorem sift_append {kept : List Bool} {xs : List α} (h : kept.length = xs.length) (b : Bool) (x : α) :
    sift (kept ++ [b]) (xs ++ [x]) = sift kept xs ++ if b then [x] else [] := by
  induction kept generalizing xs with
  | nil =>
    obtain rfl : xs = [] := List.length_eq_zero_iff.mp h.symm
    cases b <;> rfl
  | cons k kept ih =>
    cases xs with
    | nil => cases h
    | cons y xs =>
      have hl : kept.length = xs.length := Nat.succ.inj h
      cases k <;> simp [sift, ih hl]

theorem getElem?_sift {kept : List Bool} {n : Nat} (h : kept[n]? = some true) (xs : List α) :
    (sift kept xs)[place kept n]? = xs[n]? := by
  induction kept generalizing n xs with
  | nil => cases h
  | cons k kept ih =>
    cases xs with
    | nil => cases k <;> simp [sift]
    | cons x xs =>
      cases n with
      | zero =>
        obtain rfl : k = true := Option.some.inj h
        rfl
      | succ n => cases k <;> simpa [sift, place] using ih h xs

theorem sift_set {kept : List Bool} {n : Nat} (h : kept[n]? = some true) (xs : List α) (x : α) :
    sift kept (xs.set n x) = (sift kept xs).set (place kept n) x := by
  induction kept generalizing n xs with
  | nil => cases h
  | cons k kept ih =>
    cases xs with
    | nil => cases k <;> simp [sift]
    | cons y xs =>
      cases n with
      | zero =>
        obtain rfl : k = true := Option.some.inj h
        rfl
      | succ n => cases k <;> simpa [sift, place] using ih h xs

theorem sift_set_of_ne {kept : List Bool} {n : Nat} (h : kept[n]? ≠ some true) (xs : List α) (x : α) :
    sift kept (xs.set n x) = sift kept xs := by
  induction kept generalizing n xs with
  | nil => rfl
  | cons k kept ih =>
    cases xs with
    | nil => rfl
    | cons y xs =>
      cases n with
      | zero =>
        cases k with
        | true => exact absurd rfl h
        | false => rfl
      | succ n =>
        have hn : kept[n]? ≠ some true := by simpa using h
        cases k <;> simp [sift, ih hn]

theorem sift_replicate (xs : List α) : sift (List.replicate xs.length true) xs = xs := by
  induction xs with
  | nil => rfl
  | cons x xs ih => simp [List.replicate_succ, sift, ih]

end Sift

namespace Provider

variable {p : Provider} {r : Request} (l : Ledger)

theorem admits_eq_true_iff {token : String} :
    p.admits token = true ↔ ¬ (p.options.token ≠ "" ∧ token ≠ p.options.token) := by
  by_cases h : p.options.token = ""
  · simp [admits, isProtected, h]
  · simp [admits, isProtected, h, eq_comm]

theorem accepts_iff : p.Accepts r ↔ ¬ p.Denies r := by
  simp only [Accepts, Denies, admits_eq_true_iff]
  grind

theorem exists_token_of_denies (h : p.Denies r) : ∃ token, r.token? = some token ∧ p.admits token ≠ true := by
  obtain ⟨hp, token, ht, hne⟩ := h
  exact ⟨token, ht, fun ha => admits_eq_true_iff.mp ha ⟨hp, hne⟩⟩

/-- The token is looked at before anything else. -/
theorem handle_of_denies (h : p.Denies r) : p.handle r l =
    (p, .refused invalidToken, (l.logged (.handling p.id r.op)).logged (.tokenRejected p.id)) := by
  obtain ⟨token, ht, ha⟩ := exists_token_of_denies h
  cases r with
  | construct how token' sequencerType config =>
    obtain rfl : token' = token := Option.some.inj ht
    simp [handle, serve, construct, ha, droppedEvents]
  | close token' id =>
    obtain rfl : token' = token := Option.some.inj ht
    simp [handle, serve, close, ha, droppedEvents]
  | destroy token' id =>
    obtain rfl : token' = token := Option.some.inj ht
    simp [handle, serve, destroy, ha, droppedEvents]
  | check id => cases ht
  | sayHello id => cases ht
  | computeSum id x y => cases ht

theorem reply_of_denies (h : p.Denies r) : r.op.reply (.error invalidToken) =
    .object [("error", .string "Invalid security token"), ("kind", .string "auth"), ("status", .string "failure")] := by
  obtain ⟨token, ht, -⟩ := exists_token_of_denies h
  cases r with
  | construct how token' sequencerType config => cases how <;> rfl
  | close token' id => rfl
  | destroy token' id => rfl
  | check id => cases ht
  | sayHello id => cases ht
  | computeSum id x y => cases ht

theorem build_not_denied (how : Construction) (sequencerType : String) (c : Constructors) (config : Json) :
    ¬ (p.build how sequencerType c config l).2.1.IsDenied := by
  simp only [build]
  split <;> simp [enlist, Work.answered, Work.refused, Work.IsDenied, notConstructed]

theorem serve_not_denied (h : p.Accepts r) : ¬ (p.serve r l).2.1.IsDenied := by
  cases r with
  | construct how token sequencerType config =>
    have ha : p.admits token = true := h token rfl
    simp only [serve, construct, ha, if_true]
    split
    · simp [Work.refused, Work.IsDenied, unknownType]
    · split
      · rename_i e hc
        simp [Work.refused, Work.IsDenied, parseConfig_kind hc]
      · exact build_not_denied l _ _ _ _
  | close token id =>
    have ha : p.admits token = true := h token rfl
    simp only [serve, close, ha, if_true]
    split <;> simp [Work.answered, Work.refused, Work.IsDenied, notFound]
  | destroy token id =>
    have ha : p.admits token = true := h token rfl
    simp only [serve, destroy, ha, if_true]
    split <;> simp [Work.refused, Work.IsDenied, notFound]
  | check id =>
    simp only [serve, check]
    split <;> simp [Work.answered, Work.refused, Work.IsDenied, notFound]
  | sayHello id =>
    simp only [serve, sayHello]
    split
    · simp [Work.refused, Work.IsDenied, notFound]
    · split <;> simp [Work.answered, Work.IsDenied]
  | computeSum id x y =>
    simp only [serve, computeSum]
    split <;> simp [Work.refused, Work.IsDenied, notFound]

theorem handle_isDenied_iff : (p.handle r l).2.1.IsDenied ↔ p.Denies r := by
  constructor
  · intro h
    by_contra hd
    exact serve_not_denied _ (accepts_iff.mpr hd) h
  · intro h
    rw [handle_of_denies l h]
    rfl

end Provider

/-- A request that goes on does not come to be denied. -/
theorem Work.resume_isDenied (opened : Gates) (providerId : UInt16) (w : Work) (l : Ledger) :
    (w.resume opened providerId l).1.IsDenied ↔ w.IsDenied := by
  have h := resume_resumed opened providerId w l
  generalize (w.resume opened providerId l).1 = w' at h
  cases h with
  | summed acts o => cases o <;> simp [sumEnding, IsDenied, backendFailure]
  | destroyed id acts o => cases o <;> simp [destroyEnding, IsDenied, backendFailure]
  | _ => rfl

namespace Traffic

/-- The moves without the requests that the provider denies. Requests are counted as they begin, so those that stay
are counted anew; of the requests that have begun it is known which stay. -/
def purge (p : Provider) : List Bool → List Move → List Move
  | _, [] => []
  | kept, .request r :: ms =>
    if p.Denies r then purge p (kept ++ [false]) ms else .request r :: purge p (kept ++ [true]) ms
  | kept, .resume n opened :: ms =>
    if kept[n]? = some true then .resume (place kept n) opened :: purge p kept ms else purge p kept ms
  | kept, m :: ms => m :: purge p kept ms

/-- Which requests stay, of those that have begun and those that begin with a move. -/
def staying (p : Provider) : List Bool → List Move → List Bool
  | kept, [] => kept
  | kept, .request r :: ms => staying p (kept ++ [!decide (p.Denies r)]) ms
  | kept, _ :: ms => staying p kept ms

def begun (s : Traffic) : List Bool := List.replicate s.requests.length true

def purged (s : Traffic) (ms : List Move) : List Move := purge s.provider s.begun ms

/-- What it means that the denied requests of a run have had no effect and have learnt nothing. -/
structure Inert (s : Traffic) (ms : List Move) : Prop where
  provider : (s.run (s.purged ms)).provider = (s.run ms).provider
  answers : (s.run (s.purged ms)).requests = sift (staying s.provider s.begun ms) (s.run ms).requests
  teardowns : (s.run (s.purged ms)).teardowns = (s.run ms).teardowns
  books : (s.run ms).ledger.SameBooks (s.run (s.purged ms)).ledger
  journal : (s.run (s.purged ms)).ledger.journal = (s.run ms).ledger.journal
  log : (s.run (s.purged ms)).ledger.log.Sublist (s.run ms).ledger.log
  /-- A request is denied for its token only, and gets the same answer whatever else it is about. -/
  denied : ∀ n r w, s.requests.length ≤ n → (s.run ms).requests[n]? = some (r, w) →
    ((staying s.provider s.begun ms)[n]? = some (!decide (s.provider.Denies r))) ∧
      (w.IsDenied ↔ s.provider.Denies r) ∧
      (s.provider.Denies r → w = .ended (.answered (.error ⟨.auth, "Invalid security token"⟩)) ∧
        r.op.reply (.error ⟨.auth, "Invalid security token"⟩) =
          .object [("error", .string "Invalid security token"), ("kind", .string "auth"),
            ("status", .string "failure")])

/-- A run and the same run without the denied requests, of which the first `old` ones are left alone. -/
structure Alongside (p : Provider) (old : Nat) (kept : List Bool) (s t : Traffic) : Prop where
  options : s.provider.options = p.options
  provider : t.provider = s.provider
  ledger : ∃ (l : Ledger) (earlier earlier' : List LogEvent), s.ledger = l.behind earlier ∧
    t.ledger = l.behind earlier' ∧ earlier'.Sublist earlier
  requests : t.requests = sift kept s.requests
  length : kept.length = s.requests.length
  teardowns : t.teardowns = s.teardowns
  dropped : ∀ n : Nat, kept[n]? = some false → ∃ r, s.requests[n]? = some (r, Work.refused Provider.invalidToken)
  told : ∀ n r w, old ≤ n → s.requests[n]? = some (r, w) →
    kept[n]? = some (!decide (p.Denies r)) ∧ (w.IsDenied ↔ p.Denies r)

theorem denies_congr {p q : Provider} (h : q.options = p.options) (r : Request) : q.Denies r ↔ p.Denies r := by
  rw [Provider.Denies, Provider.Denies, h]

namespace Alongside

variable {p : Provider} {old : Nat} {kept : List Bool} {s t : Traffic}

theorem refl (s : Traffic) : Alongside s.provider s.requests.length s.begun s s where
  options := rfl
  provider := rfl
  ledger := ⟨s.ledger, [], [], rfl, rfl, List.Sublist.refl []⟩
  requests := (sift_replicate s.requests).symm
  length := by simp [begun]
  teardowns := rfl
  dropped := by simp [begun, List.getElem?_replicate]
  told := fun n r w hn hw => absurd (List.getElem?_eq_some_iff.mp hw).1 (Nat.not_lt.mpr hn)

theorem told_concat (h : Alongside p old kept s t) {r : Request} {w : Work} {b : Bool}
    (hb : b = !decide (p.Denies r)) (hw : w.IsDenied ↔ p.Denies r) {n : Nat} {r' : Request} {w' : Work}
    (hn : old ≤ n) (hr : (s.requests ++ [(r, w)])[n]? = some (r', w')) :
    (kept ++ [b])[n]? = some (!decide (p.Denies r')) ∧ (w'.IsDenied ↔ p.Denies r') := by
  rw [List.getElem?_append] at hr ⊢
  rw [h.length]
  split_ifs at hr ⊢ with hl
  · exact h.told n r' w' hn hr
  · obtain ⟨hz, he⟩ := List.getElem?_eq_some_iff.mp hr
    have hz' : n - s.requests.length = 0 := by simpa using hz
    simp only [hz', List.getElem_cons_zero, Prod.mk.injEq] at he
    obtain ⟨rfl, rfl⟩ := he
    exact ⟨by simp [hz', hb], hw⟩

theorem dropped_concat (h : Alongside p old kept s t) {x : Request × Work} {b : Bool}
    (hb : b = false → x.2 = .refused Provider.invalidToken) {n : Nat} (hn : (kept ++ [b])[n]? = some false) :
    ∃ r, (s.requests ++ [x])[n]? = some (r, .refused Provider.invalidToken) := by
  rw [List.getElem?_append] at hn ⊢
  rw [h.length] at hn
  split_ifs at hn ⊢ with hl
  · exact h.dropped n hn
  · obtain ⟨hz, he⟩ := List.getElem?_eq_some_iff.mp hn
    have hz' : n - s.requests.length = 0 := by simpa using hz
    simp only [hz', List.getElem_cons_zero] at he
    exact ⟨x.1, by simp [hz', ← hb he]⟩

/-- A denied request begins in the one run only. -/
theorem deny (h : Alongside p old kept s t) {r : Request} (hr : p.Denies r) :
    Alongside p old (kept ++ [false]) (s.step (.request r)) t := by
  obtain ⟨l, earlier, earlier', hs, ht, he⟩ := h.ledger
  have hd : s.provider.Denies r := (denies_congr h.options r).mpr hr
  have hstep : s.step (.request r) = { s with
      ledger := (s.ledger.logged (.handling s.provider.id r.op)).logged (.tokenRejected s.provider.id)
      requests := s.requests ++ [(r, .refused Provider.invalidToken)] } := by
    simp [step, Provider.handle_of_denies _ hd]
  rw [hstep]
  exact {
    options := h.options
    provider := h.provider
    ledger := by
      refine ⟨{ l with log := [] }, earlier ++ l.log ++ [.handling s.provider.id r.op, .tokenRejected s.provider.id],
        earlier' ++ l.log, ?_, ?_, ?_⟩
      · simp [hs, Ledger.behind, Ledger.logged]
      · simp [ht, Ledger.behind]
      · exact (he.append_right l.log).trans (List.sublist_append_left _ _)
    requests := by rw [sift_append h.length, ← h.requests]; simp
    length := by simp [h.length]
    teardowns := h.teardowns
    dropped := fun n hn => h.dropped_concat (fun _ => rfl) hn
    told := fun n r' w hn hw => h.told_concat (by simp [hr]) (by simp [Provider.invalidToken, hr]) hn hw }

theorem request (h : Alongside p old kept s t) {r : Request} (hr : ¬ p.Denies r) :
    Alongside p old (kept ++ [true]) (s.step (.request r)) (t.step (.request r)) := by
  obtain ⟨l, earlier, earlier', hs, ht, he⟩ := h.ledger
  have hw : (s.provider.handle r s.ledger).2.1.IsDenied ↔ p.Denies r :=
    (Provider.handle_isDenied_iff _).trans (denies_congr h.options r)
  exact {
    options := (step_options s _).trans h.options
    provider := by simp [step, hs, ht, h.provider]
    ledger := ⟨(s.provider.handle r l).2.2, earlier, earlier', by simp [step, hs], by simp [step, ht, h.provider], he⟩
    requests := by simp [step, hs, ht, h.provider, sift_append h.length, ← h.requests]
    length := by simp [step, h.length]
    teardowns := h.teardowns
    dropped := fun n hn => h.dropped_concat (by simp) hn
    told := fun n r' w hn hw' => h.told_concat (by simp [hr]) hw hn hw' }

theorem resume (h : Alongside p old kept s t) {n : Nat} (hn : kept[n]? = some true) (opened : Gates) :
    Alongside p old kept (s.step (.resume n opened)) (t.step (.resume (place kept n) opened)) := by
  obtain ⟨l, earlier, earlier', hs, ht, he⟩ := h.ledger
  have hlookup : t.requests[place kept n]? = s.requests[n]? := by rw [h.requests, getElem?_sift hn]
  simp only [step, hlookup]
  cases hr : s.requests[n]? with
  | none => exact h
  | some x =>
    obtain ⟨r, w⟩ := x
    have hprovider : t.provider.id = s.provider.id := by rw [h.provider]
    exact {
      options := h.options
      provider := h.provider
      ledger := ⟨(w.resume opened s.provider.id l).2, earlier, earlier', by simp [hs], by simp [ht, hprovider], he⟩
      requests := by simp [hs, ht, hprovider, h.requests, sift_set hn]
      length := by simp [h.length]
      teardowns := h.teardowns
      dropped := fun n' hn' => by
        have hne : n ≠ n' := by
          rintro rfl
          simp [hn] at hn'
        rw [List.getElem?_set_ne hne]
        exact h.dropped n' hn'
      told := fun n' r' w' hn' hw' => by
        rw [List.getElem?_set] at hw'
        split_ifs at hw' with he' hl
        · obtain ⟨rfl, rfl⟩ : r = r' ∧ (w.resume opened s.provider.id s.ledger).1 = w' := by simpa using hw'
          subst he'
          exact ⟨(h.told n r w hn' hr).1, (w.resume_isDenied ..).trans (h.told n r w hn' hr).2⟩
        · exact h.told n' r' w' hn' hw' }

theorem skip (h : Alongside p old kept s t) {n : Nat} (hn : kept[n]? ≠ some true) (opened : Gates) :
    Alongside p old kept (s.step (.resume n opened)) t := by
  have hstep : s.step (.resume n opened) = s := by
    cases hk : kept[n]? with
    | none =>
      have hl : s.requests.length ≤ n := h.length ▸ List.getElem?_eq_none_iff.mp hk
      simp [step, List.getElem?_eq_none_iff.mpr hl]
    | some b =>
      obtain rfl : b = false := by simpa [hk] using hn
      obtain ⟨r, hr⟩ := h.dropped n hk
      obtain ⟨hl, hx⟩ := List.getElem?_eq_some_iff.mp hr
      have hset : s.requests.set n (r, .refused Provider.invalidToken) = s.requests := by
        rw [← hx, List.set_getElem_self]
      simp only [step, hr, Work.refused, Work.resume] at hset ⊢
      rw [hset]
  rwa [hstep]

theorem tearDown (h : Alongside p old kept s t) (opened : Gates) :
    Alongside p old kept (s.step (.tearDown opened)) (t.step (.tearDown opened)) := by
  obtain ⟨l, earlier, earlier', hs, ht, he⟩ := h.ledger
  exact {
    options := h.options
    provider := by simp [step, hs, ht, h.provider]
    ledger := ⟨(s.provider.tearDown opened l).2.2, earlier, earlier', by simp [step, hs],
      by simp [step, ht, h.provider], he⟩
    requests := h.requests
    length := h.length
    teardowns := by simp [step, hs, ht, h.provider, h.teardowns]
    dropped := h.dropped
    told := h.told }

theorem resumeTeardown (h : Alongside p old kept s t) (n : Nat) (opened : Gates) :
    Alongside p old kept (s.step (.resumeTeardown n opened)) (t.step (.resumeTeardown n opened)) := by
  obtain ⟨l, earlier, earlier', hs, ht, he⟩ := h.ledger
  simp only [step, h.teardowns]
  cases hr : s.teardowns[n]? with
  | none => exact h
  | some d =>
    exact {
      options := h.options
      provider := h.provider
      ledger := ⟨(d.resume opened l).2, earlier, earlier', by simp [hs], by simp [ht], he⟩
      requests := h.requests
      length := h.length
      teardowns := by simp [hs, ht]
      dropped := h.dropped
      told := h.told }

theorem run (h : Alongside p old kept s t) (ms : List Move) :
    Alongside p old (staying p kept ms) (s.run ms) (t.run (purge p kept ms)) := by
  -- `kept` grows with every request that begins: it tells what number a request has in the run without the denied ones.
  induction ms generalizing kept s t with
  | nil => exact h
  | cons m ms ih =>
    cases m with
    | request r =>
      by_cases hr : p.Denies r
      · simpa [purge, staying, hr, Traffic.run] using ih (h.deny hr)
      · simpa [purge, staying, hr, Traffic.run] using ih (h.request hr)
    | resume n opened =>
      by_cases hn : kept[n]? = some true
      · simpa [purge, staying, hn, Traffic.run] using ih (h.resume hn opened)
      · simpa [purge, staying, hn, Traffic.run] using ih (h.skip hn opened)
    | tearDown opened => exact ih (h.tearDown opened)
    | resumeTeardown n opened => exact ih (h.resumeTeardown n opened)

end Alongside

/-- Whatever is under way at a provider and whatever comes, denied requests change nothing and are told nothing. -/
theorem inert (s : Traffic) (ms : List Move) : Inert s ms := by
  have h : Alongside s.provider s.requests.length (staying s.provider s.begun ms) (s.run ms) (s.run (s.purged ms)) :=
    (Alongside.refl s).run ms
  obtain ⟨l, earlier, earlier', hs, ht, he⟩ := h.ledger
  refine ⟨h.provider, h.requests, h.teardowns, ?_, by simp [hs, ht, Ledger.behind], ?_, ?_⟩
  · exact ⟨by simp [hs, ht, Ledger.behind], by simp [hs, ht, Ledger.behind], by simp [hs, ht, Ledger.behind],
      by simp [hs, ht, Ledger.behind]⟩
  · rw [hs, ht]
    exact he.append_right l.log
  · intro n r w hn hw
    obtain ⟨hk, hd⟩ := h.told n r w hn hw
    refine ⟨hk, hd, fun hr => ⟨?_, Provider.reply_of_denies hr⟩⟩
    obtain ⟨r', hr'⟩ := h.dropped n (by simpa [hr] using hk)
    obtain ⟨-, rfl⟩ : r = r' ∧ w = .refused Provider.invalidToken := by simpa [hw] using hr'
    rfl

end Traffic
end SequencerHub
