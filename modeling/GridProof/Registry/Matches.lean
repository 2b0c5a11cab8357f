import GridProof.Deployment.Zones
import GridProof.Registry.History
import GridProof.Registry.SelfService

/-!
# When the API reports a registration

What the API reads of the registry, against the calls that the provider's wallet has sent.

* `decodeCall_register`   the contract reads the call data as the registration it was made for;
* `matchesRequest_iff`    a match is an active record with the key of the zone and the id of the type;
* `match_reported_iff`    it is reported exactly where the wallet's last change was to send that call data.
-/

namespace SelfService
open ReputationEscrow (Address Bytes32)
open Sha256 (Byte)
open Ingestion (EvidenceSource RegisterProviderRequest isWalletAddress)
open Pipeline (IsoDate Zone bytes32 hexValue)
open NodeRegistry (Msg Call Registry HistoryOf lastChange lastRegister registers deactivates RegisteredBy)
open Nested Runs
open Firmware (LowersAscii)

/-! ## call data -/

theorem pairs_hex (bs : List Byte) : pairs (bs.flatMap fun b => [b.toNat / 16, b.toNat % 16]) = bs := by
  induction bs with
  | nil => rfl
  | cons b bs ih =>
    have hbyte : BitVec.ofNat 8 (16 * (b.toNat / 16) + b.toNat % 16) = b := by
      rw [Nat.div_add_mod, BitVec.ofNat_toNat, BitVec.setWidth_eq]
    show BitVec.ofNat 8 (16 * (b.toNat / 16) + b.toNat % 16) ::
      pairs (bs.flatMap fun b => [b.toNat / 16, b.toNat % 16]) = _
    rw [hbyte, ih]

/-- a wallet sends the bytes that the client encoded -/
theorem dataBytes_hex (bs : List Byte) : dataBytes ("0x" ++ Sha256.hex bs) = some bs := by
  have htext : ("0x" ++ Sha256.hex bs).toList = '0' :: 'x' :: (Sha256.hex bs).toList := by
    rw [String.toList_append]
    rfl
  unfold dataBytes
  rw [htext]
  show ((Sha256.hex bs).toList.mapM hexValue).map pairs = _
  rw [Pipeline.mapM_hexValue_hex, Option.map_some, pairs_hex]

section
variable {keccak256 : List Byte → Bytes32}

theorem selector_length (signature : String) : (selector keccak256 signature).length = 4 := by
  unfold selector
  rw [List.length_take, Abi.word_length]
  rfl

/-- **The contract reads the call data as the registration it was made for.** -/
theorem decodeCall_register (h : Dispatches keccak256) (key : Bytes32) (providerType : BitVec 8) :
    decodeCall keccak256 (selector keccak256 "register(bytes32,uint8)" ++
      (Abi.word key ++ Abi.word (providerType.setWidth 256))) = some (.register key providerType) := by
  have hlength : (selector keccak256 "register(bytes32,uint8)").length = 4 := selector_length _
  unfold Dispatches at h
  simp only [List.map_cons, List.map_nil, List.nodup_cons, List.mem_cons, not_or] at h
  obtain ⟨⟨-, -, -, hadd, -⟩, ⟨-, -, hremove, -⟩, ⟨-, hpause, -⟩, ⟨hunpause, -⟩, -⟩ := h
  have hkey : Abi.argument (Abi.word key ++ Abi.word (providerType.setWidth 256)) 0 = some key := Abi.argument_word _ _
  have htype : Abi.argument (Abi.word key ++ Abi.word (providerType.setWidth 256)) 1 =
      some (providerType.setWidth 256) := by
    rw [Abi.argument_succ, ← List.append_nil (Abi.word (providerType.setWidth 256)), Abi.argument_word]
  have hwidth : (providerType.setWidth 256).toNat = providerType.toNat := by
    rw [BitVec.toNat_setWidth]
    exact Nat.mod_eq_of_lt (lt_trans providerType.isLt (by decide))
  have hnarrow : (providerType.setWidth 256).setWidth 8 = providerType := by
    refine BitVec.eq_of_toNat_eq ?_
    rw [BitVec.toNat_setWidth, hwidth]
    exact Nat.mod_eq_of_lt providerType.isLt
  unfold decodeCall
  dsimp only
  rw [List.take_append_of_le_length (by omega), List.take_of_length_le (by omega), List.drop_append,
    List.drop_of_length_le (by omega), hlength, Nat.sub_self, List.drop_zero, List.nil_append, if_neg (Ne.symm hadd),
    if_neg (Ne.symm hremove), if_neg (Ne.symm hpause), if_neg (Ne.symm hunpause), if_pos rfl, hkey, htype]
  show (if (providerType.setWidth 256).toNat < 2 ^ 8 then
    some (Call.register key ((providerType.setWidth 256).setWidth 8)) else none) = _
  rw [hwidth, if_pos providerType.isLt, hnarrow]

end

/-! ## the key of a zone as a text -/

theorem hexValue_codes : ∀ code < 128, ∀ n < 16, hexValue (Char.ofNat code) = some n →
    (Char.ofNat code).toLower = Sha256.hexDigit n := by
  decide +kernel

theorem hexValue_lower {c : Char} {n : ℕ} (h : hexValue c = some n) : c.toLower = Sha256.hexDigit n := by
  obtain ⟨hcode, hdigit, -⟩ := Deployment.hexNibble_hexValue h
  have hall := hexValue_codes c.toNat hcode n hdigit
  rw [Char.ofNat_toNat] at hall
  exact hall h

theorem mapM_lower {cs : List Char} {ds : List ℕ} (h : cs.mapM hexValue = some ds) :
    cs.map Char.toLower = ds.map Sha256.hexDigit ∧ ∀ d ∈ ds, d < 16 := by
  induction cs generalizing ds with
  | nil =>
    obtain rfl := Option.some.inj h
    exact ⟨rfl, List.forall_mem_nil _⟩
  | cons c cs ih =>
    rw [List.mapM_cons] at h
    obtain ⟨d, hd, h⟩ := Option.bind_eq_some_iff.mp h
    obtain ⟨rest, hrest, h⟩ := Option.bind_eq_some_iff.mp h
    obtain rfl := Option.some.inj h
    obtain ⟨hmap, hdigits⟩ := ih hrest
    rw [List.map_cons, List.map_cons, hexValue_lower hd, hmap]
    exact ⟨rfl, List.forall_mem_cons.mpr ⟨(Deployment.hexNibble_hexValue hd).2.1, hdigits⟩⟩

theorem fold_lt {ds : List ℕ} (h : ∀ d ∈ ds, d < 16) : ds.foldl (fun n d => 16 * n + d) 0 < 16 ^ ds.length := by
  induction ds using List.reverseRecOn with
  | nil => exact Nat.one_pos
  | append_singleton ds d ih =>
    obtain ⟨hds, hd⟩ := List.forall_mem_append.mp h
    have hdigit : d < 16 := hd d (List.mem_singleton_self d)
    have hlt := ih hds
    rw [List.length_append, List.foldl_append, List.length_singleton, pow_succ]
    show 16 * ds.foldl (fun n d => 16 * n + d) 0 + d < _
    omega

theorem lowerHex_digits {ds : List ℕ} (h : ∀ d ∈ ds, d < 16) :
    Deployment.lowerHex ds.length (ds.foldl (fun n d => 16 * n + d) 0) = ds.map Sha256.hexDigit := by
  induction ds using List.reverseRecOn with
  | nil => rfl
  | append_singleton ds d ih =>
    obtain ⟨hds, hd⟩ := List.forall_mem_append.mp h
    have hdigit : d < 16 := hd d (List.mem_singleton_self d)
    rw [List.length_append, List.foldl_append, List.map_append]
    show Deployment.lowerHex (ds.length + 1) (16 * ds.foldl (fun n d => 16 * n + d) 0 + d) = _
    unfold Deployment.lowerHex
    rw [show (16 * ds.foldl (fun n d => 16 * n + d) 0 + d) / 16 = ds.foldl (fun n d => 16 * n + d) 0 by omega,
      show (16 * ds.foldl (fun n d => 16 * n + d) 0 + d) % 16 = d by omega, ih hds]
    rfl

theorem asciiLower_bytes32 {s : String} {key : Bytes32} (h : bytes32 s = some key) :
    JsText.asciiLower s = bytes32Text key := by
  obtain ⟨digits, ds, hs, hlength, hds, rfl⟩ := Deployment.bytes32_eq_some h
  obtain ⟨hmap, hdigits⟩ := mapM_lower hds
  have hcount : ds.length = 64 := by
    rw [← hlength, ← List.length_map (f := Char.toLower), hmap, List.length_map]
  have hvalue : (BitVec.ofNat 256 (ds.foldl (fun n d => 16 * n + d) 0)).toNat =
      ds.foldl (fun n d => 16 * n + d) 0 := by
    have hlt := fold_lt hdigits
    rw [hcount] at hlt
    exact Nat.mod_eq_of_lt (lt_of_lt_of_eq hlt (by norm_num))
  unfold JsText.asciiLower bytes32Text
  rw [hs, List.map_cons, List.map_cons, hmap, hvalue, ← hcount, lowerHex_digits hdigits]
  rfl

theorem bytes32Text_inj {a b : Bytes32} (h : bytes32Text a = bytes32Text b) : a = b := by
  have hlists := congrArg String.toList h
  unfold bytes32Text at hlists
  rw [String.toList_ofList, String.toList_ofList] at hlists
  have hbound : ∀ a : Bytes32, a.toNat < 16 ^ 64 := fun a => lt_of_lt_of_eq a.isLt (by norm_num)
  exact BitVec.eq_of_toNat_eq
    (Deployment.lowerHex_inj (hbound a) (hbound b) (List.cons.inj (List.cons.inj hlists).2).2)

theorem hexDigit_ascii : ∀ k < 16, (Sha256.hexDigit k).toNat < 128 := by
  decide

theorem bytes32Text_ascii (key : Bytes32) : ∀ c ∈ (bytes32Text key).toList, c.toNat < 128 := by
  unfold bytes32Text
  rw [String.toList_ofList]
  intro c hc
  rcases List.mem_cons.mp hc with rfl | hc
  · decide
  · rcases List.mem_cons.mp hc with rfl | hc
    · decide
    · obtain ⟨k, hk, rfl⟩ := Deployment.mem_lowerHex hc
      exact hexDigit_ascii k hk

theorem asciiLower_bytes32Text (key : Bytes32) : JsText.asciiLower (bytes32Text key) = bytes32Text key := by
  have hdigits : (Deployment.lowerHex 64 key.toNat).map Char.toLower = Deployment.lowerHex 64 key.toNat := by
    refine (List.map_congr_left fun c hc => ?_).trans (List.map_id _)
    obtain ⟨k, hk, rfl⟩ := Deployment.mem_lowerHex hc
    exact (Deployment.hexDigit_cases k hk).2.1
  unfold JsText.asciiLower bytes32Text
  rw [String.toList_ofList, List.map_cons, List.map_cons, hdigits]
  rfl

/-- the texts of two keys are one in lower case exactly where the keys are one -/
theorem lower_key_iff [JsText.Runtime] (hlower : LowersAscii) {s : String} {key : Bytes32} (h : bytes32 s = some key)
    (other : Bytes32) : JsText.toLowerCase (bytes32Text other) = JsText.toLowerCase s ↔ other = key := by
  rw [hlower _ (bytes32Text_ascii other), hlower s (Deployment.ascii_of_bytes32 h), asciiLower_bytes32 h,
    asciiLower_bytes32Text]
  exact ⟨bytes32Text_inj, congrArg bytes32Text⟩

/-! ## the answer of the API -/

/-- every key that the API looks up is one of thirty-two bytes -/
theorem zoneKey_isSome {zones : List Zone} (hzones : ∀ z ∈ zones, z.KeyIsBytes32) (zoneId : String) :
    ∃ key, bytes32 (zoneKeyForProviderRegistration zones zoneId) = some key := by
  refine Option.isSome_iff_exists.mp ?_
  unfold zoneKeyForProviderRegistration
  cases hfind : zones.find? fun zone => zone.id = zoneId with
  | none =>
    show (bytes32 (bytes32From ("zone:" ++ zoneId))).isSome = true
    unfold bytes32From Pipeline.sha256Hex
    exact Pipeline.bytes32_hex (Sha256.digest_length _)
  | some z => exact hzones z (List.mem_of_find?_eq_some hfind)

section
variable [JsText.Runtime] {keccak256 : List Byte → Bytes32} {zones : List Zone} {node : Node} {env : ProcessEnv}
  {now : IsoDate} {input : RegisterProviderRequest} {r : ProviderChainRegistration} {o : OnChain}

omit [JsText.Runtime] in
/-- a client has the address of the contract -/
theorem client_contract {config : ClientConfig} (h : createClientFromEnv node env = some (some config)) :
    truthy (env "BOTCHAIN_NODE_REGISTRY_ADDRESS") = some config.nodeRegistry := by
  unfold createClientFromEnv at h
  split at h
  · rename_i hregistry _ _
    dsimp only at h
    split at h
    · rw [← Option.some.inj (Option.some.inj h)]
      exact hregistry
    · cases h
  · cases h

omit [JsText.Runtime] in
theorem registration_read {wallet : String} {registration : NodeRegistryProvider}
    (h : getProviderRegistration node wallet = some registration) : ∃ provider,
      node.getProvider wallet = some provider ∧ registration =
        ⟨bytes32Text provider.zoneId, provider.providerType, provider.registeredAt.toNat, provider.active⟩ := by
  unfold getProviderRegistration at h
  split at h
  · cases h
  · obtain ⟨provider, hprovider, h⟩ := Option.bind_eq_some_iff.mp h
    split at h
    · cases h
    · exact ⟨provider, hprovider, (Option.some.inj h).symm⟩

/-- an answer that has read the registry holds the call data -/
theorem answer_read (h : providerChainRegistrationFor keccak256 zones node env now input = some r)
    (ho : r.onChain = some o) : ∃ provider,
      encodeNodeRegistryRegisterCall keccak256 (zoneKeyForProviderRegistration zones input.zoneId) input.providerType =
        r.registerCall.data ∧
      node.getProvider input.walletAddress = some provider ∧
      o.matchesRequest = (provider.active &&
        decide (JsText.toLowerCase (bytes32Text provider.zoneId) =
          JsText.toLowerCase (zoneKeyForProviderRegistration zones input.zoneId)) &&
        decide (provider.providerType = providerTypeIdFor input.providerType)) := by
  unfold providerChainRegistrationFor at h
  obtain ⟨data, hdata, h⟩ := Option.bind_eq_some_iff.mp h
  obtain ⟨onChain, honChain, h⟩ := Option.bind_eq_some_iff.mp h
  obtain rfl := Option.some.inj h
  obtain rfl : onChain = some o := ho
  unfold readOnChainRegistration at honChain
  obtain ⟨client, hclient, hread⟩ := Option.map_eq_some_iff.mp honChain
  obtain ⟨config, rfl, hread⟩ := Option.bind_eq_some_iff.mp hread
  obtain ⟨registration, hregistration, rfl⟩ := Option.map_eq_some_iff.mp hread
  obtain ⟨provider, hprovider, rfl⟩ := registration_read hregistration
  refine ⟨provider, ?_, hprovider, rfl⟩
  rw [client_contract hclient] at hdata
  obtain ⟨text, htext, rfl⟩ := Option.map_eq_some_iff.mp hdata
  exact htext

/-- **A match is an active record with the key of the zone and the id of the type.** -/
theorem matchesRequest_iff (hlower : LowersAscii) {key : Bytes32}
    (hkey : bytes32 (zoneKeyForProviderRegistration zones input.zoneId) = some key)
    (h : providerChainRegistrationFor keccak256 zones node env now input = some r) (ho : r.onChain = some o)
    {provider : NodeRegistry.Provider} (hread : node.getProvider input.walletAddress = some provider) :
    o.matchesRequest = true ↔ provider.active = true ∧ provider.zoneId = key ∧
      provider.providerType = providerTypeIdFor input.providerType := by
  obtain ⟨own, -, hown, hmatch⟩ := answer_read h ho
  obtain rfl := Option.some.inj (hown.symm.trans hread)
  rw [hmatch, Bool.and_eq_true, Bool.and_eq_true, decide_eq_true_eq, decide_eq_true_eq, lower_key_iff hlower hkey,
    and_assoc]

end

/-! ## runs of the registry -/

section
variable {p : Address}

theorem lastRegister_of_lastChange {trail : List (Entry Registry (Msg × Call))} {e : Entry Registry (Msg × Call)}
    (h : lastChange p trail = some e) (hreg : registers p e.call = true) : lastRegister p trail = some e := by
  unfold lastChange at h
  unfold lastRegister
  induction trail with
  | nil => cases h
  | cons first trail ih =>
    cases hfirst : registers p first.call with
    | true =>
      simp only [List.find?_cons, hfirst, Bool.true_or] at h ⊢
      exact h
    | false =>
      cases hdeact : deactivates p first.call with
      | true =>
        simp only [List.find?_cons, hfirst, hdeact, Bool.or_true] at h
        rw [Option.some.inj h, hreg] at hfirst
        cases hfirst
      | false =>
        simp only [List.find?_cons, hfirst, hdeact, Bool.or_self] at h ⊢
        exact ih h

/-- an active record with these values, and the last change of the wallet -/
theorem active_iff_registered {s : Recorded Registry (Msg × Call)} (h : HistoryOf p s) (key : Bytes32)
    (providerType : BitVec 8) :
    ((s.1.getProvider p).active = true ∧ (s.1.getProvider p).zoneId = key ∧
      (s.1.getProvider p).providerType = providerType) ↔
    ∃ e, lastChange p s.2 = some e ∧ e.call.1.sender = p ∧ e.call.2 = .register key providerType := by
  constructor
  · rintro ⟨hactive, rfl, rfl⟩
    obtain ⟨e, he, hreg⟩ := h.active_iff.mp hactive
    have hby := h.registered e (lastRegister_of_lastChange he hreg)
    exact ⟨e, he, hby.sender, hby.call⟩
  · rintro ⟨⟨state, msg, call⟩, he, hsender, hcall⟩
    obtain rfl : call = .register key providerType := hcall
    have hreg : registers p (msg, .register key providerType) = true := beq_iff_eq.mpr hsender
    have hby := h.registered _ (lastRegister_of_lastChange he hreg)
    obtain ⟨hzone, htype⟩ := Call.register.inj hby.call
    exact ⟨h.active_iff.mpr ⟨_, he, hreg⟩, hzone.symm, htype.symm⟩

/-- the history of every provider, from a registry that has none -/
theorem history_run {s₀ : Registry} (h : s₀.providers = NodeRegistry.deploy.providers)
    {m : Machine (Recorded Registry (Msg × Call))} {as : List (Action (Msg × Call))}
    (hrun : run (step (recorded NodeRegistry.exec)) ⟨(s₀, []), []⟩ as = some m) : m.All (HistoryOf p) := by
  have hstart : HistoryOf p (s₀, []) := by
    refine ⟨iff_of_false ?_ ?_, fun e he => ?_, fun _ => congrFun h p⟩
    · show ¬(s₀.providers p).active = true
      rw [h]
      exact Bool.false_ne_true
    · rintro ⟨e, he, -⟩
      cases he
    · cases he
  have hok : Along (step (recorded NodeRegistry.exec)) (fun _ _ => True) ⟨(s₀, []), []⟩ as :=
    along_of_forall (fun _ _ _ => trivial) _
  refine run_all (fun m c t hm _ hc => ?_) (fun m c t hm _ hc => ?_) (Machine.all_start hstart) hok hrun
  · obtain ⟨t, trail⟩ := t
    obtain ⟨he, rfl⟩ := recorded_done hc
    exact NodeRegistry.effect_history hm (NodeRegistry.exec_effect (.inl he))
  · obtain ⟨t, trail⟩ := t
    obtain ⟨he, rfl⟩ := recorded_opened hc
    exact NodeRegistry.effect_history hm (NodeRegistry.exec_effect (.inr he))

end

/-- **In every run from a deployment, the API reports a match exactly where the last call that registered or
deactivated the wallet's provider is one that the wallet itself sent, with the call data of the API's answer.** -/
theorem match_reported_iff [JsText.Runtime] (hlower : LowersAscii) {keccak256 : List Byte → Bytes32}
    (hdispatch : Dispatches keccak256) {block : Deployment.Block} {sender : Address}
    {addresses : Deployment.Addresses} {params : Deployment.Params} {d : Deployment.Deployed}
    (hdeploy : Deployment.deploy keccak256 block sender addresses params = .ok d) {zones : List Zone}
    (hzones : ∀ z ∈ zones, z.KeyIsBytes32) {m : Machine (Recorded Registry (Msg × Call))}
    {as : List (Action (Msg × Call))}
    (hrun : run (step (recorded NodeRegistry.exec)) ⟨(d.registry, []), []⟩ as = some m) (p : Address)
    (env : ProcessEnv) (now : IsoDate) (input : RegisterProviderRequest) :
    m.All fun s => ∀ node r o, node.getProvider input.walletAddress = some (s.1.getProvider p) →
      providerChainRegistrationFor keccak256 zones node env now input = some r → r.onChain = some o →
      (o.matchesRequest = true ↔ ∃ text data e, r.registerCall.data = some text ∧ dataBytes text = some data ∧
        lastChange p s.2 = some e ∧ e.call.1.sender = p ∧ decodeCall keccak256 data = some e.call.2) := by
  obtain ⟨key, hkey⟩ := zoneKey_isSome hzones input.zoneId
  have hhistory : m.All (HistoryOf p) := history_run (Deployment.deploy_seeds hdeploy).2.1 hrun
  have hframe : ∀ s : Recorded Registry (Msg × Call), HistoryOf p s → ∀ node r o,
      node.getProvider input.walletAddress = some (s.1.getProvider p) →
      providerChainRegistrationFor keccak256 zones node env now input = some r → r.onChain = some o →
      (o.matchesRequest = true ↔ ∃ text data e, r.registerCall.data = some text ∧ dataBytes text = some data ∧
        lastChange p s.2 = some e ∧ e.call.1.sender = p ∧ decodeCall keccak256 data = some e.call.2) := by
    intro s hs node r o hnode hr ho
    obtain ⟨_, htext, -, -⟩ := answer_read hr ho
    have hencoded := htext.symm
    unfold encodeNodeRegistryRegisterCall at hencoded
    rw [hkey, Option.map_some] at hencoded
    rw [matchesRequest_iff hlower hkey hr ho hnode, active_iff_registered hs]
    constructor
    · rintro ⟨e, he, hsender, hcall⟩
      refine ⟨_, _, e, hencoded, dataBytes_hex _, he, hsender, ?_⟩
      rw [decodeCall_register hdispatch, hcall]
    · rintro ⟨text, data, e, hdata, hbytes, he, hsender, hcall⟩
      obtain rfl := Option.some.inj (hencoded.symm.trans hdata)
      obtain rfl := Option.some.inj ((dataBytes_hex _).symm.trans hbytes)
      rw [decodeCall_register hdispatch] at hcall
      exact ⟨e, he, hsender, (Option.some.inj hcall).symm⟩
  exact ⟨hframe _ hhistory.1, fun s hs => hframe s (hhistory.2 s hs)⟩

/-! ## the way in -/

/-- the action neither pauses the contract nor closes the zone -/
def KeepsOpen (key : Bytes32) : Action (Msg × Call) → Prop
  | .call (_, call) => call ≠ .pause ∧ call ≠ .removeZone key
  | _ => True

theorem effect_open {s t : Registry} {msg : Msg} {c : Call} {key : Bytes32} (he : NodeRegistry.Effect s msg c t)
    (hpause : c ≠ .pause) (hremove : c ≠ .removeZone key) (h : s.paused = false ∧ s.validZones key = true) :
    t.paused = false ∧ t.validZones key = true := by
  cases he with
  | addZone zoneId =>
    refine ⟨h.1, ?_⟩
    by_cases hkey : key = zoneId
    · rw [hkey]
      exact Function.update_self _ _ _
    · exact (Function.update_of_ne hkey _ _).trans h.2
  | removeZone zoneId =>
    have hkey : key ≠ zoneId := fun heq => hremove (congrArg _ heq.symm)
    exact ⟨h.1, (Function.update_of_ne hkey _ _).trans h.2⟩
  | pause => exact absurd rfl hpause
  | unpause => exact ⟨rfl, h.2⟩
  | register zoneId providerType hpaused hzone htype hinactive => exact h
  | deactivate provider hsender hactive => exact h

theorem open_run {s₀ : Registry} {key : Bytes32} (h : s₀.paused = false ∧ s₀.validZones key = true)
    {m : Machine Registry} {as : List (Action (Msg × Call))} (hopen : ∀ a ∈ as, KeepsOpen key a)
    (hrun : run (step NodeRegistry.exec) ⟨s₀, []⟩ as = some m) :
    m.All fun s => s.paused = false ∧ s.validZones key = true := by
  have hok : Along (step NodeRegistry.exec) (fun _ a => KeepsOpen key a) ⟨s₀, []⟩ as :=
    along_of_forall (fun a ha _ => hopen a ha) _
  refine run_all (fun m c t hm hkeep hc => ?_) (fun m c t hm hkeep hc => ?_) (Machine.all_start h) hok hrun
  · exact effect_open (NodeRegistry.exec_effect (.inl hc)) hkeep.1 hkeep.2 hm
  · exact effect_open (NodeRegistry.exec_effect (.inr hc)) hkeep.1 hkeep.2 hm

/-- the action does not deactivate the provider -/
def KeepsProvider (p : Address) : Action (Msg × Call) → Prop
  | .call (_, call) => call ≠ .deactivate p
  | _ => True

/-- an active record is changed by a deactivation only -/
theorem effect_provider {s t : Registry} {msg : Msg} {c : Call} {p : Address} {record : NodeRegistry.Provider}
    (he : NodeRegistry.Effect s msg c t) (hc : c ≠ .deactivate p) (hactive : record.active = true)
    (h : s.getProvider p = record) : t.getProvider p = record := by
  cases he with
  | addZone zoneId => exact h
  | removeZone zoneId => exact h
  | pause => exact h
  | unpause => exact h
  | register zoneId providerType hpaused hzone htype hinactive =>
    have hother : p ≠ msg.sender := by
      rintro rfl
      rw [← h] at hactive
      exact Bool.noConfusion (hinactive.symm.trans hactive)
    exact (Function.update_of_ne hother _ _).trans h
  | deactivate provider hsender hactive' =>
    have hother : p ≠ provider := fun heq => hc (congrArg _ heq.symm)
    exact (Function.update_of_ne hother _ _).trans h

theorem provider_run {s₀ : Registry} {p : Address} (hactive : (s₀.getProvider p).active = true)
    {m : Machine Registry} {as : List (Action (Msg × Call))} (hkeeps : ∀ a ∈ as, KeepsProvider p a)
    (hrun : run (step NodeRegistry.exec) ⟨s₀, []⟩ as = some m) :
    m.All fun s => s.getProvider p = s₀.getProvider p := by
  have hok : Along (step NodeRegistry.exec) (fun _ a => KeepsProvider p a) ⟨s₀, []⟩ as :=
    along_of_forall (fun a ha _ => hkeeps a ha) _
  refine run_all (fun m c t hm hkeep hc => ?_) (fun m c t hm hkeep hc => ?_) (Machine.all_start rfl) hok hrun
  · exact effect_provider (NodeRegistry.exec_effect (.inl hc)) hkeep hactive hm
  · exact effect_provider (NodeRegistry.exec_effect (.inr hc)) hkeep hactive hm

theorem answer_data [JsText.Runtime] {keccak256 : List Byte → Bytes32} {zones : List Zone} {node : Node}
    {env : ProcessEnv} {now : IsoDate} {input : RegisterProviderRequest} {r : ProviderChainRegistration}
    (h : providerChainRegistrationFor keccak256 zones node env now input = some r) {text : String}
    (htext : r.registerCall.data = some text) :
    encodeNodeRegistryRegisterCall keccak256 (zoneKeyForProviderRegistration zones input.zoneId) input.providerType =
      some text := by
  unfold providerChainRegistrationFor at h
  obtain ⟨data, hdata, h⟩ := Option.bind_eq_some_iff.mp h
  obtain ⟨onChain, -, h⟩ := Option.bind_eq_some_iff.mp h
  obtain rfl := Option.some.inj h
  obtain rfl : data = some text := htext
  split at hdata
  · obtain ⟨own, hown, heq⟩ := Option.map_eq_some_iff.mp hdata
    rw [hown, Option.some.inj heq]
  · cases hdata

/-- a call that passes the checks is done -/
theorem register_ok {s : Registry} {msg : Msg} {key : Bytes32} {providerType : BitVec 8} (hvalue : msg.value = 0)
    (hpaused : s.paused = false) (hzone : s.validZones key = true) (htype : providerType = 0 ∨ providerType = 1)
    (hinactive : s.isActive msg.sender = false) :
    ∃ t, NodeRegistry.exec s (msg, .register key providerType) = .done t ∧
      t.getProvider msg.sender = ⟨key, providerType, msg.time, true⟩ := by
  have hknown : ¬providerType = NodeRegistry.providerTypeSensorNode →
      providerType = NodeRegistry.providerTypeHumanReporter := htype.resolve_left
  have hok : ∃ t, NodeRegistry.register s msg key providerType = .ok t := by
    simp only [NodeRegistry.register, NodeRegistry.notPayable, NodeRegistry.whenNotPaused, Except.bind_eq_ok,
      Except.pure_eq_ok, NodeRegistry.require_eq_ok, Bool.not_eq_true', beq_iff_eq]
    exact ⟨_, (), hvalue, (), hpaused, (), hzone, (), by simpa using hknown, (), hinactive, rfl⟩
  obtain ⟨t, ht⟩ := hok
  refine ⟨t, ?_, ?_⟩
  · unfold NodeRegistry.exec NodeRegistry.dispatch
    dsimp only
    rw [ht]
  · cases NodeRegistry.register_effect ht with
    | register _ _ _ _ _ _ => exact Function.update_self _ _ _

/-- **From a deployment with the zones of the database, as long as nobody pauses the contract or closes the zone, a
wallet that is not registered is registered by sending the call data of the API's answer, and the API reports a match
from then on, until the wallet's provider is deactivated.** -/
theorem registration_open [JsText.Runtime] (hlower : LowersAscii) {keccak256 : List Byte → Bytes32}
    (hdispatch : Dispatches keccak256) {block : Deployment.Block} {addresses : Deployment.Addresses}
    {params : Deployment.Params} {d : Deployment.Deployed}
    (hdeploy : Deployment.deploy keccak256 block params.admin addresses params = .ok d) {zones : List Zone}
    (hseeded : params.zoneIds = zones.map Zone.zoneKey)
    {input : RegisterProviderRequest} {zone : Zone} (hzone : zones.find? (fun z => z.id = input.zoneId) = some zone)
    {key : Bytes32} (hkey : bytes32 zone.zoneKey = some key) {as : List (Action (Msg × Call))}
    (hopen : ∀ a ∈ as, KeepsOpen key a) {m : Machine Registry}
    (hrun : run (step NodeRegistry.exec) ⟨d.registry, []⟩ as = some m) {node : Node} {env : ProcessEnv} {now : IsoDate}
    {r : ProviderChainRegistration} (hr : providerChainRegistrationFor keccak256 zones node env now input = some r)
    {text : String} (htext : r.registerCall.data = some text) {msg : Msg} (hvalue : msg.value = 0)
    (hinactive : m.top.isActive msg.sender = false) :
    ∃ data call t, dataBytes text = some data ∧ decodeCall keccak256 data = some call ∧
      NodeRegistry.exec m.top (msg, call) = .done t ∧
      t.getProvider msg.sender = ⟨key, providerTypeIdFor input.providerType, msg.time, true⟩ ∧
      ∀ later u, (∀ a ∈ later, KeepsProvider msg.sender a) → run (step NodeRegistry.exec) ⟨t, []⟩ later = some u →
        u.All fun s => ∀ node env now r o, node.getProvider input.walletAddress = some (s.getProvider msg.sender) →
          providerChainRegistrationFor keccak256 zones node env now input = some r → r.onChain = some o →
          o.matchesRequest = true := by
  obtain ⟨hzones', -, hpaused⟩ := Deployment.deploy_seeds hdeploy
  have hmem := List.mem_of_find?_eq_some hzone
  have hvalid : d.registry.validZones key = true := by
    rw [hzones' key, hseeded]
    exact ⟨rfl, zone.zoneKey, List.mem_map_of_mem hmem, Deployment.zoneKey_bytes32 keccak256 hkey⟩
  have hlookup : bytes32 (zoneKeyForProviderRegistration zones input.zoneId) = some key := by
    unfold zoneKeyForProviderRegistration
    rw [hzone]
    exact hkey
  have htop := (open_run ⟨hpaused, hvalid⟩ hopen hrun).1
  have hencoded := answer_data hr htext
  unfold encodeNodeRegistryRegisterCall at hencoded
  rw [hlookup, Option.map_some] at hencoded
  obtain rfl := Option.some.inj hencoded
  have htype : providerTypeIdFor input.providerType = 0 ∨ providerTypeIdFor input.providerType = 1 := by
    cases input.providerType with
    | sensor => exact .inl rfl
    | reporter => exact .inr rfl
  obtain ⟨t, ht, hrecord⟩ := register_ok hvalue htop.1 htop.2 htype hinactive
  refine ⟨_, _, t, dataBytes_hex _, decodeCall_register hdispatch _ _, ht, hrecord, ?_⟩
  intro later u hkeeps hlater
  have hmatches : ∀ s : Registry, s.getProvider msg.sender = t.getProvider msg.sender → ∀ node env now r o,
      node.getProvider input.walletAddress = some (s.getProvider msg.sender) →
      providerChainRegistrationFor keccak256 zones node env now input = some r → r.onChain = some o →
      o.matchesRequest = true := by
    intro s hs node env now r o hnode hr ho
    refine (matchesRequest_iff hlower hlookup hr ho hnode).mpr ?_
    rw [hs, hrecord]
    exact ⟨rfl, rfl, rfl⟩
  have hactive : (t.getProvider msg.sender).active = true := congrArg NodeRegistry.Provider.active hrecord
  have hsame := provider_run hactive hkeeps hlater
  exact ⟨hmatches _ hsame.1, fun s hs => hmatches s (hsame.2 s hs)⟩

/-! ## one registration -/

/-- the hashes of the functions' names -/
def signatureHash (bytes : List Byte) : Bytes32 :=
  if bytes = Sha256.utf8 "addZone(bytes32)" then
    0x013dc0cb99038c26271e82534d2951ef86e98bf1d4b5eee3864aa5dadcdfc467#256
  else if bytes = Sha256.utf8 "removeZone(bytes32)" then
    0x94711e8daa4cae8b05ac5890ba7691618b75d941860df3c07a16007c5236e3f0#256
  else if bytes = Sha256.utf8 "pause()" then
    0x8456cb591a934d53f6ccc6332123a165a1f3562907bf11330d847a29ca49eb89#256
  else if bytes = Sha256.utf8 "unpause()" then
    0x3f4ba83af89dc9793996d9e56b8abe6dc88cd97c9c2bb23027806e9c1ffd54dc#256
  else if bytes = Sha256.utf8 "register(bytes32,uint8)" then
    0x610b0a4af957ea1f69c4d492bc6715f2e1f9ef9f95bcfa24b4c1b5c1b769b9fa#256
  else if bytes = Sha256.utf8 "deactivate(address)" then
    0x3ea053eb60519e9b45da5d6c0f35651e51252c24e11767b9fd6adc8e0a8e7e9b#256
  else 0#256

theorem signatureHash_dispatches : Dispatches signatureHash := by
  decide +kernel

/-- a meter's wallet that registers in the zone of the sample -/
def sampleInput : RegisterProviderRequest where
  walletAddress := "0x0000000000000000000000000000000000000060"
  providerType := .sensor
  zoneId := Deployment.sampleZone.id

/-- a client and the contract -/
def sampleProcessEnv (name : String) : Option String :=
  if name = "BOTCHAIN_RPC_URL" then some "http://127.0.0.1:8545"
  else if name = "RELAYER_PRIVATE_KEY" then some "0x0000000000000000000000000000000000000000000000000000000000000001"
  else if name = "BOTCHAIN_NODE_REGISTRY_ADDRESS" then some "0x0000000000000000000000000000000000000030"
  else if name = "BOTCHAIN_UPTIME_ATTESTATION_ADDRESS" then some "0x0000000000000000000000000000000000000040"
  else if name = "BOTCHAIN_REPUTATION_ESCROW_ADDRESS" then some "0x0000000000000000000000000000000000000050"
  else none

/-- a node that reads one record -/
def nodeOf (provider : NodeRegistry.Provider) : Node := ⟨fun _ => true, fun _ => some provider⟩

def sampleWallet : Address := (0x60#160).toFin

def sampleRegister : Msg × Call := (⟨sampleWallet, 0, 100, fun _ _ => false⟩, .register Deployment.sampleKey 0)

theorem sampleZones_keys : ∀ z ∈ [Deployment.sampleZone], z.KeyIsBytes32 := by
  refine List.forall_mem_singleton.mpr ?_
  unfold Pipeline.Zone.KeyIsBytes32
  rw [Deployment.sampleZone_key]
  rfl

theorem zoned_deployed : ∃ d, Deployment.deploy signatureHash Deployment.sampleBlock Deployment.zonedParams.admin
    Deployment.sampleAddresses Deployment.zonedParams = .ok d := by
  refine Deployment.deploy_of_guards _ ⟨by decide, by decide, by decide, by decide, by decide⟩ ?_
  refine List.forall_mem_singleton.mpr ⟨Deployment.sampleKey, ?_⟩
  exact Deployment.zoneKey_bytes32 _ Deployment.sampleZone_key

theorem zoned_open {d : Deployment.Deployed} (hd : Deployment.deploy signatureHash Deployment.sampleBlock
    Deployment.zonedParams.admin Deployment.sampleAddresses Deployment.zonedParams = .ok d) :
    d.registry.validZones Deployment.sampleKey = true ∧ d.registry.paused = false ∧
      d.registry.isActive sampleWallet = false := by
  obtain ⟨hzones, hproviders, hpaused⟩ := Deployment.deploy_seeds hd
  refine ⟨(hzones Deployment.sampleKey).mpr ⟨rfl, Deployment.sampleZone.zoneKey, List.mem_singleton_self _, ?_⟩,
    hpaused, ?_⟩
  · exact Deployment.zoneKey_bytes32 _ Deployment.sampleZone_key
  · unfold NodeRegistry.Registry.isActive
    rw [hproviders]
    rfl

theorem sample_answer [JsText.Runtime] (provider : NodeRegistry.Provider)
    (h : provider.providerType = 0 ∨ provider.providerType = 1) : ∃ r o text,
      providerChainRegistrationFor signatureHash [Deployment.sampleZone] (nodeOf provider) sampleProcessEnv
        (.ofMillis 0) sampleInput = some r ∧ r.onChain = some o ∧ r.registerCall.data = some text := by
  have hkey : bytes32 (zoneKeyForProviderRegistration [Deployment.sampleZone] sampleInput.zoneId) =
      some Deployment.sampleKey := Deployment.sampleZone_key
  have hcontract : truthy (sampleProcessEnv "BOTCHAIN_NODE_REGISTRY_ADDRESS") =
      some "0x0000000000000000000000000000000000000030" := by decide
  have hclient : ∃ config, createClientFromEnv (nodeOf provider) sampleProcessEnv = some (some config) := ⟨_, rfl⟩
  have hread : ∃ registration,
      getProviderRegistration (nodeOf provider) sampleInput.walletAddress = some registration := by
    have hwallet : isWalletAddress sampleInput.walletAddress = true := by decide
    have hknown : ¬(provider.providerType ≠ 0 ∧ provider.providerType ≠ 1) := fun hne => h.elim hne.1 hne.2
    unfold getProviderRegistration
    rw [hwallet]
    show ∃ registration, (if provider.providerType ≠ 0 ∧ provider.providerType ≠ 1 then none else some _) =
      some registration
    rw [if_neg hknown]
    exact ⟨_, rfl⟩
  obtain ⟨config, hclient⟩ := hclient
  obtain ⟨registration, hread⟩ := hread
  unfold providerChainRegistrationFor readOnChainRegistration encodeNodeRegistryRegisterCall
  dsimp only
  rw [hcontract, hkey, hclient]
  dsimp only
  rw [Option.map_some, Option.map_some, Option.bind_eq_bind, Option.bind_some, Option.map_some, Option.bind_some, hread]
  exact ⟨_, _, _, rfl, rfl, rfl⟩

/-- the wallet registers, and the API compares -/
theorem match_reported_sample : letI := JsText.asciiRuntime
    ∃ d m, Deployment.deploy signatureHash Deployment.sampleBlock
      Deployment.zonedParams.admin Deployment.sampleAddresses Deployment.zonedParams = .ok d ∧
    run (step (recorded NodeRegistry.exec)) ⟨(d.registry, []), []⟩ [.call sampleRegister] = some m ∧
    m.top.1.getProvider sampleWallet = ⟨Deployment.sampleKey, 0, 100, true⟩ ∧
    m.All fun s => ∀ node r o, node.getProvider sampleInput.walletAddress = some (s.1.getProvider sampleWallet) →
      providerChainRegistrationFor signatureHash [Deployment.sampleZone] node sampleProcessEnv (.ofMillis 0)
        sampleInput = some r → r.onChain = some o →
      (o.matchesRequest = true ↔ ∃ text data e, r.registerCall.data = some text ∧ dataBytes text = some data ∧
        lastChange sampleWallet s.2 = some e ∧ e.call.1.sender = sampleWallet ∧
        decodeCall signatureHash data = some e.call.2) := by
  let := JsText.asciiRuntime
  obtain ⟨d, hd⟩ := zoned_deployed
  obtain ⟨hzone, hpaused, hinactive⟩ := zoned_open hd
  have hdone : ∃ t, NodeRegistry.exec d.registry sampleRegister = .done t ∧
      t.getProvider sampleWallet = ⟨Deployment.sampleKey, 0, 100, true⟩ :=
    register_ok rfl hpaused hzone (.inl rfl) hinactive
  obtain ⟨t, ht, hrecord⟩ := hdone
  have hrun : run (step (recorded NodeRegistry.exec)) ⟨(d.registry, []), []⟩ [.call sampleRegister] =
      some ⟨(t, [⟨d.registry, sampleRegister⟩]), []⟩ := by
    rw [run_cons]
    unfold step recorded
    dsimp only
    rw [ht]
    rfl
  exact ⟨d, _, hd, hrun, hrecord, match_reported_iff (fun _ _ => rfl) signatureHash_dispatches hd sampleZones_keys hrun
    sampleWallet _ _ sampleInput⟩

/-- a call that activates a record does not close anything -/
theorem effect_registers {s t : Registry} {msg : Msg} {c : Call} {p : Address} (he : NodeRegistry.Effect s msg c t)
    (hinactive : s.isActive p = false) (hactive : (t.getProvider p).active = true) : t.paused = s.paused := by
  have hno : (s.getProvider p).active ≠ true := Bool.eq_false_iff.mp hinactive
  cases he with
  | addZone zoneId => exact absurd hactive hno
  | removeZone zoneId => exact absurd hactive hno
  | pause => exact absurd hactive hno
  | unpause => exact absurd hactive hno
  | register zoneId providerType hpaused hzone htype _ => rfl
  | deactivate provider hsender _ => rfl

/-- the contract is paused, and another wallet is refused -/
def sampleLater : List (Action (Msg × Call)) :=
  [.call (⟨(0x10#160).toFin, 0, 200, fun _ _ => true⟩, .pause),
    .call (⟨(0x61#160).toFin, 0, 300, fun _ _ => false⟩, .register Deployment.sampleKey 0)]

/-- the wallet sends what the API answers -/
theorem registration_open_sample : letI := JsText.asciiRuntime
    ∃ d data call t u, Deployment.deploy signatureHash Deployment.sampleBlock
      Deployment.zonedParams.admin Deployment.sampleAddresses Deployment.zonedParams = .ok d ∧
    decodeCall signatureHash data = some call ∧
    NodeRegistry.exec d.registry (sampleRegister.1, call) = .done t ∧
    t.getProvider sampleWallet = ⟨Deployment.sampleKey, 0, 100, true⟩ ∧
    run (step NodeRegistry.exec) ⟨t, []⟩ sampleLater = some u ∧ u.top.paused = true ∧
    ∃ r o, providerChainRegistrationFor signatureHash [Deployment.sampleZone] (nodeOf (u.top.getProvider sampleWallet))
      sampleProcessEnv (.ofMillis 0) sampleInput = some r ∧ r.onChain = some o ∧ o.matchesRequest = true := by
  let := JsText.asciiRuntime
  obtain ⟨d, hd⟩ := zoned_deployed
  obtain ⟨-, hpaused, hinactive⟩ := zoned_open hd
  have hrun : run (step NodeRegistry.exec) ⟨d.registry, []⟩ [] = some ⟨d.registry, []⟩ := rfl
  obtain ⟨r, o, text, hr, -, htext⟩ := sample_answer .zero (.inl rfl)
  obtain ⟨data, call, t, -, hcall, ht, hrecord, hmatch⟩ := registration_open (fun _ _ => rfl)
    signatureHash_dispatches hd rfl rfl Deployment.sampleZone_key (List.forall_mem_nil _) hrun hr htext
    (show sampleRegister.1.value = 0 from rfl) hinactive
  have hopen : t.paused = false :=
    (effect_registers (NodeRegistry.exec_effect (.inl ht)) hinactive
      (congrArg NodeRegistry.Provider.active hrecord)).trans hpaused
  have hlater : run (step NodeRegistry.exec) ⟨t, []⟩ sampleLater = some ⟨{ t with paused := true }, []⟩ := by
    have hpause : NodeRegistry.pause t ⟨(0x10#160).toFin, 0, 200, fun _ _ => true⟩ =
        .ok { t with paused := true } := by
      unfold NodeRegistry.pause NodeRegistry.whenNotPaused
      rw [hopen]
      rfl
    unfold sampleLater
    rw [run_cons]
    unfold step NodeRegistry.exec NodeRegistry.dispatch
    dsimp only
    rw [hpause]
    rfl
  have hkeeps : ∀ a ∈ sampleLater, KeepsProvider sampleWallet a := by
    simp [sampleLater, KeepsProvider]
  have hsame := (provider_run (congrArg NodeRegistry.Provider.active hrecord) hkeeps hlater).1
  have htype := congrArg NodeRegistry.Provider.providerType (hsame.trans hrecord)
  obtain ⟨r', o', -, hr', ho', -⟩ := sample_answer _ (.inl htype)
  exact ⟨d, data, call, t, _, hd, hcall, ht, hrecord, hlater, rfl, r', o', hr', ho',
    (hmatch sampleLater _ hkeeps hlater).1 _ _ _ r' o' rfl hr' ho'⟩

end SelfService
