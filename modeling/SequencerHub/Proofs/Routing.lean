import SequencerHub.Client.Endpoint
import SequencerHub.Host.Basic
import SequencerHub.Proofs.Octets
import SequencerHub.Proofs.Paths
import SequencerHub.Proofs.WireForms

/-! The two ends of the wire protocol fit together: a server reads the request that a client writes, and the client
reads the reply that the server has given. -/
namespace SequencerHub

section Body

variable {α : Type}

theorem Body.read_encode (typed : Node Spot → Decoded Spot α) (cs : List Char) :
    Body.read typed (Octets.encode cs) = decodeText JsonText.depthLimit typed cs := by
  have hsound : ((cs.map some).takeWhile Option.isSome).filterMap id = cs := by
    induction cs with
    | nil => rfl
    | cons c cs ih => simpa using ih
  have htext : (cs.map some).map (·.getD stray) = cs := by simp [Function.comp_def]
  simp only [Body.read, Octets.characters_encode, hsound, htext, List.drop_length]

theorem Request.read_render (r : Request) : Body.read Request.read (Octets.encode r.toJson.render.toList) = .ok r := by
  have hexact : r.toJson.isExact = true := by cases r <;> rfl
  have hone : r.toJson.nesting = 1 := by cases r <;> rfl
  have hnesting : r.toJson.nesting < JsonText.depthLimit := by rw [hone]; decide
  rw [Body.read_encode, Json.render, String.toList_ofList]
  exact decodeText_write hexact hnesting fun n hn => Request.read_of_bare hn

end Body

namespace Http

section Path

theorem toList_rpcPath (id : UInt16) : (rpcPath id).toList =
    "/mobject/v1/providers/".toList ++ Nat.toDigits 10 id.toNat ++ "/rpc".toList := by
  have hpath : rpcPath id = "/mobject/v1/providers/" ++ toString id.toNat ++ "/rpc" := rfl
  have hdigits : (toString id.toNat).toList = Nat.toDigits 10 id.toNat := by
    rw [Nat.toString_eq_ofList_toDigits, String.toList_ofList]
  rw [hpath, String.toList_append, String.toList_append, hdigits]

end Path

section Segment

variable {n : Nat} {c : Char}

theorem ne_of_isDigit {d : Char} (hd : d.isDigit = false) (h : c ∈ Nat.toDigits 10 n) : c ≠ d := by
  rintro rfl
  rw [isDigit_of_mem h] at hd
  cases hd

theorem ne_of_all {cs : List Char} {d : Char} (h : cs.all (· != d) = true) : ∀ c ∈ cs, c ≠ d :=
  fun c hc => bne_iff_ne.mp (List.all_eq_true.mp h c hc)

theorem pathOf_rpcPath (id : UInt16) : pathOf (rpcPath id) = (rpcPath id).toList := by
  have hfront : "/mobject/v1/providers/".toList.all (fun c => c != '?' && c != '#') = true := rfl
  have hback : "/rpc".toList.all (fun c => c != '?' && c != '#') = true := rfl
  have hpath : ∀ c ∈ (rpcPath id).toList, (c != '?' && c != '#') = true := by
    intro c hc
    rw [toList_rpcPath, List.mem_append, List.mem_append] at hc
    obtain (hc | hc) | hc := hc
    · exact List.all_eq_true.mp hfront c hc
    · have hq : c ≠ '?' := ne_of_isDigit rfl hc
      have hf : c ≠ '#' := ne_of_isDigit rfl hc
      simp [hq, hf]
    · exact List.all_eq_true.mp hback c hc
  rw [pathOf, ← List.append_nil (rpcPath id).toList, List.takeWhile_append_of_pos hpath]
  rfl

theorem splitSlashes_of_map {path : List Char} {names : List String}
    (h : (Path.splitSlashes path).map String.ofList = names) : Path.splitSlashes path = names.map String.toList := by
  rw [← h, List.map_map]
  simp [Function.comp_def]

theorem route?_shutdown_iff {path : List Char} : route? path = some .shutdown ↔ path = shutdownPath.toList := by
  constructor
  · intro h
    unfold route? at h
    split at h
    · rename_i hsplit
      rw [← Path.intercalate_splitSlashes path, splitSlashes_of_map hsplit]
      rfl
    · split_ifs at h
      cases h
    · cases h
  · rintro rfl
    rfl

theorem route?_rpc_iff {path segment : List Char} : route? path = some (.rpc segment) ↔
    path = "/mobject/v1/providers/".toList ++ segment ++ "/rpc".toList ∧ '/' ∉ segment ∧ segment ≠ [] := by
  constructor
  · intro h
    unfold route? at h
    split at h
    · cases h
    · rename_i name hsplit
      split_ifs at h with hname
      obtain rfl : name.toList = segment := by simpa using h
      have hparts := splitSlashes_of_map hsplit
      refine ⟨?_, ?_, by simpa using hname⟩
      · rw [← Path.intercalate_splitSlashes path, hparts]
        simp [List.intercalate_cons_cons]
      · exact Path.not_mem_of_mem_splitSlashes (p := path) (by simp [hparts])
    · cases h
  · rintro ⟨rfl, hslash, hne⟩
    have hsegment : ∀ c ∈ segment, c ≠ '/' := fun c hc heq => hslash (heq ▸ hc)
    have hname : String.ofList segment ≠ "" := fun heq => hne (by simpa using congrArg String.toList heq)
    have hfront : "/mobject/v1/providers/".toList =
        [] ++ '/' :: ("mobject".toList ++ '/' :: ("v1".toList ++ '/' :: ("providers".toList ++ ['/']))) := by rfl
    have hback : "/rpc".toList = '/' :: "rpc".toList := by rfl
    have hsplit : (Path.splitSlashes ("/mobject/v1/providers/".toList ++ segment ++ "/rpc".toList)).map String.ofList =
        ["", "mobject", "v1", "providers", String.ofList segment, "rpc"] := by
      rw [hfront, hback]
      simp only [List.append_assoc, List.cons_append]
      rw [Path.splitSlashes_part (by simp), Path.splitSlashes_part (ne_of_all rfl),
        Path.splitSlashes_part (ne_of_all rfl), Path.splitSlashes_part (ne_of_all rfl), List.nil_append,
        Path.splitSlashes_part hsegment, Path.splitSlashes_last (ne_of_all rfl)]
      rfl
    rw [route?, hsplit]
    simp [hname]

theorem route?_rpcPath (id : UInt16) : route? (pathOf (rpcPath id)) = some (.rpc (Nat.toDigits 10 id.toNat)) := by
  rw [pathOf_rpcPath, toList_rpcPath]
  exact route?_rpc_iff.mpr ⟨rfl, fun h => ne_of_isDigit rfl h rfl, Nat.toDigits_ne_nil⟩

theorem unescape_of_plain {cs : List Char} (h : ∀ c ∈ cs, c ≠ '%') : unescape cs = Octets.encode cs := by
  induction cs with
  | nil => rfl
  | cons a cs ih =>
    have ha : (a == '%') = false := beq_eq_false_iff_ne.mpr (h a List.mem_cons_self)
    have hcs := ih fun c hc => h c (List.mem_cons_of_mem a hc)
    match cs with
    | [] => rfl
    | [b] => rfl
    | b :: c :: r =>
      rw [unescape, ha]
      simp only [hcs]
      simp [Octets.encode]

structure Numeral (digits : List Char) (id : UInt16) : Prop where
  nonempty : digits ≠ []
  decimal : ∀ c ∈ digits, c.isDigit = true
  value : Nat.ofDigitChars 10 digits 0 = id.toNat

/-- Whether a text spells a provider id: decimal digits, behind a plus sign or none. -/
def Spells (cs : List Char) (id : UInt16) : Prop := ∃ digits, (cs = digits ∨ cs = '+' :: digits) ∧ Numeral digits id

theorem numeral_iff {digits : List Char} {id : UInt16} :
    (if digits.isEmpty || !digits.all Char.isDigit then none
      else if Nat.ofDigitChars 10 digits 0 < 0x10000 then some (UInt16.ofNat (Nat.ofDigitChars 10 digits 0))
      else none) = some id ↔ Numeral digits id := by
  have hfits := id.toNat_lt
  constructor
  · intro h
    split_ifs at h with hempty hlt
    simp only [Bool.or_eq_true, Bool.not_eq_true', not_or, Bool.not_eq_false, List.isEmpty_iff,
      List.all_eq_true] at hempty
    obtain rfl := Option.some.inj h
    exact ⟨hempty.1, hempty.2, (UInt16.toNat_ofNat_of_lt' hlt).symm⟩
  · rintro ⟨hne, hd, hvalue⟩
    have hempty : (digits.isEmpty || !digits.all Char.isDigit) = false := by
      rw [List.isEmpty_eq_false_iff.mpr hne, List.all_eq_true.mpr hd]
      rfl
    rw [if_neg (by simp [hempty]), hvalue, if_pos (by omega), UInt16.ofNat_toNat]

theorem providerId?_eq_some_iff {cs : List Char} {id : UInt16} : providerId? cs = some id ↔ Spells cs id := by
  unfold providerId?
  split
  · rename_i r
    refine numeral_iff.trans ⟨fun h => ⟨r, .inr rfl, h⟩, ?_⟩
    rintro ⟨digits, rfl | hr, h⟩
    · cases h.decimal '+' List.mem_cons_self
    · obtain rfl := (List.cons.inj hr).2
      exact h
  · rename_i hplus
    refine numeral_iff.trans ⟨fun h => ⟨cs, .inl rfl, h⟩, ?_⟩
    rintro ⟨digits, rfl | rfl, h⟩
    · exact h
    · exact absurd rfl (hplus digits)

theorem providerId?_toDigits (id : UInt16) : providerId? (Nat.toDigits 10 id.toNat) = some id :=
  providerId?_eq_some_iff.mpr ⟨_, .inl rfl, Nat.toDigits_ne_nil, fun _ hc => isDigit_of_mem hc,
    Nat.ofDigitChars_toDigits (by omega) (by omega)⟩

end Segment

/-- The server reads the request that the client has written. -/
theorem routed_rpcRequest (id : UInt16) (r : Request) : routed (rpcRequest id r) = .rpc id r := by
  have hsegment : Octets.decode? (unescape (Nat.toDigits 10 id.toNat)) = some (Nat.toDigits 10 id.toNat) := by
    rw [unescape_of_plain fun c hc => ne_of_isDigit rfl hc, Octets.decode?_encode]
  have hname : "content-type".map Char.toLower = "content-type" := by
    rw [← String.toList_inj, String.toList_map]
    rfl
  have hjson : ((rpcRequest id r).header? "content-type").map MediaType.isJson = some true := by
    simp [HttpRequest.header?, rpcRequest, hname]
    rfl
  have hbody : Body.read Request.read (rpcRequest id r).body = .ok r := r.read_render
  have hroute : route? (pathOf (rpcRequest id r).target) = some (.rpc (Nat.toDigits 10 id.toNat)) := route?_rpcPath id
  rw [routed, hroute]
  simp only [rpcRequest, if_true]
  rw [← rpcRequest, readRpc]
  simp only [hsegment, providerId?_toDigits, hjson, hbody]
  rfl

theorem routed_shutdownRequest : routed shutdownRequest = .shutdown := by rfl

/-- What a client may send as a reply so that it arrives as it is: sorted, without floating-point numbers, and flat
enough. -/
structure Carries (j : Json) : Prop where
  exact : j.isExact = true
  nesting : j.nesting < JsonText.depthLimit
  canonical : j.canonical = j

theorem bodyJson?_render {j : Json} (h : Carries j) : bodyJson? (Octets.encode j.render.toList) = some j := by
  have hp : Json.parse j.write = .ok j := by rw [j.parse_write h.exact h.nesting, h.canonical]
  rw [bodyJson?, Octets.decode?_encode, Option.bind_some, Json.render, String.toList_ofList, hp, toOption_ok]

/-- A reply arrives as it was given. -/
theorem replyOf_respond (base : String) (id : UInt16) {j : Json} (h : Carries j) :
    replyOf base id (respond id (some j)) = .ok j := by
  simp only [replyOf, respond, HttpResponse.json, bodyJson?_render h]
  rfl

theorem replyOf_respond_none (base : String) (id : UInt16) :
    replyOf base id (respond id none) = .error (.noSuchProvider id) := by
  have hc : Carries (.object [("error", .string noSuchProvider), ("provider_id", .ofUInt16 id)]) := by
    refine ⟨rfl, ?_, rfl⟩
    exact show 1 < JsonText.depthLimit by decide
  simp only [replyOf, respond, HttpResponse.json, bodyJson?_render hc]
  rfl

theorem carries_envelope (r : Except RemoteError Answer) : Carries ((Envelope.ofResult r).toJson Answer.toJson) := by
  have hdeep : 1 < JsonText.depthLimit := by decide
  cases r with
  | error e => exact ⟨rfl, hdeep, rfl⟩
  | ok a => cases a <;> exact ⟨rfl, hdeep, rfl⟩

theorem carries_reply (op : Operation) (r : Except RemoteError Answer) : Carries (op.reply r) := by
  cases op with
  | sayHello => exact ⟨rfl, show 0 < JsonText.depthLimit by decide, rfl⟩
  | _ => exact carries_envelope r

theorem carries_panicReply (op : Operation) (p : Panic) : Carries (Dispatch.panicReply op p) :=
  ⟨rfl, show 1 < JsonText.depthLimit by decide, rfl⟩

end Http
end SequencerHub
