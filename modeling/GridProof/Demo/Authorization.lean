import GridProof.Demo.Message
import Mathlib.Data.List.Pairwise

/-!
# One signature, one demo run

* `create_eq_ok`, `consume_eq_ok`   what the two functions do where they do not throw;
* `Facts`                 the store is what the answers so far make it: a challenge is used iff it was consumed;
* `step_facts`            every action keeps them, if its nonce is new;
* `authorized_run`        so in every run a signature starts one simulation, the one it was given for.
-/

namespace Demo
open RateLimit (HttpError)
open Keyed

/-! ## the two functions -/

theorem create_eq_ok {flag : Option String} {challenges challenges' : Challenges}
    {input : DemoWalletChallengeRequest} {nonce : String} {now : Int} {response : DemoWalletChallengeResponse}
    (h : createDemoWalletChallenge flag challenges input nonce now = .ok (challenges', response)) :
    challenges' = challenges.set nonce (challengeFor input nonce now) ∧ response = responseFor input nonce now ∧
      (input.publishToChain = true → flag = some "true") := by
  unfold createDemoWalletChallenge at h
  dsimp only at h
  split at h
  · cases h
  · rename_i hallowed
    split at h
    · cases h
    · cases h
      refine ⟨rfl, rfl, fun hpublish => ?_⟩
      rw [hpublish, Bool.true_and, Bool.not_eq_true', decide_eq_false_iff_not] at hallowed
      exact not_not.mp hallowed

variable {ethers : Ethers}

/-- what a simulation needs of the challenge that it consumes -/
structure Consumable (ethers : Ethers) (c : DemoChallenge) (input : DemoSimulationRequest) (now : Int) : Prop where
  fresh : c.used = false
  early : now < c.expiresAt
  wallet : c.walletAddress = JsText.asciiLower input.walletAddress
  zone : c.zoneId = input.zoneId
  scenario : c.scenario = input.scenario
  publish : c.publishToChain = input.publishToChain
  signer : ∃ address, ethers.verifyMessage c.message input.signature = some address ∧
    JsText.asciiLower address = c.walletAddress

theorem consume_of_consumable {challenges : Challenges} {input : DemoSimulationRequest} {c : DemoChallenge}
    (now : Int) (hget : challenges.get? input.nonce = some c) (h : Consumable ethers c input now) :
    consumeChallenge ethers challenges input now = .ok (challenges.set input.nonce { c with used := true }) := by
  obtain ⟨address, hverify, haddress⟩ := h.signer
  have hopen : ¬(c.used || decide (c.expiresAt ≤ now)) = true := by
    rw [h.fresh, Bool.false_or, decide_eq_true_iff]
    exact Int.not_le.mpr h.early
  have hdetails : ¬(c.zoneId ≠ input.zoneId ∨ c.scenario ≠ input.scenario ∨
      c.publishToChain ≠ input.publishToChain) := by
    rw [h.zone, h.scenario, h.publish]
    simp
  unfold consumeChallenge
  rw [hget]
  dsimp only
  rw [if_neg hopen, if_neg (not_not_intro h.wallet), if_neg hdetails, hverify]
  exact if_neg (not_not_intro haddress)

theorem consume_eq_ok {challenges challenges' : Challenges} {input : DemoSimulationRequest} {now : Int}
    (h : consumeChallenge ethers challenges input now = .ok challenges') :
    ∃ c, challenges.get? input.nonce = some c ∧ Consumable ethers c input now ∧
      challenges' = challenges.set input.nonce { c with used := true } := by
  unfold consumeChallenge at h
  cases hget : challenges.get? input.nonce with
  | none =>
    rw [hget] at h
    cases h
  | some c =>
    rw [hget] at h
    dsimp only at h
    split at h
    · cases h
    rename_i hopen
    split at h
    · cases h
    rename_i hwallet
    split at h
    · cases h
    rename_i hdetails
    rw [Bool.not_eq_true, Bool.or_eq_false_iff, decide_eq_false_iff_not, Int.not_le] at hopen
    rw [not_or, not_or, not_not, not_not, not_not] at hdetails
    cases hverify : ethers.verifyMessage c.message input.signature with
    | none =>
      rw [hverify] at h
      cases h
    | some address =>
      rw [hverify] at h
      dsimp only [Option.map_some] at h
      split at h
      · cases h
      · rename_i hsigner
        cases h
        exact ⟨c, rfl, ⟨hopen.1, hopen.2, not_not.mp hwallet, hdetails.1, hdetails.2.1, hdetails.2.2,
          address, hverify, not_not.mp hsigner⟩, rfl⟩

/-! ## what the store knows -/

/-- the challenge after these answers -/
def challengeAfter (events : List Event) (asked : DemoWalletChallengeRequest) (nonce : String) (created : Int) :
    DemoChallenge :=
  { challengeFor asked nonce created with used := decide (nonce ∈ events.filterMap Event.consumed) }

section
variable {asked : DemoWalletChallengeRequest} {nonce : String} {created : Int} {events more : List Event}

theorem challengeAfter_consumed (h : nonce ∈ more.filterMap Event.consumed) :
    challengeAfter more asked nonce created = { challengeAfter events asked nonce created with used := true } := by
  unfold challengeAfter
  rw [decide_eq_true h]

theorem challengeAfter_same
    (h : nonce ∈ more.filterMap Event.consumed ↔ nonce ∈ events.filterMap Event.consumed) :
    challengeAfter more asked nonce created = challengeAfter events asked nonce created := by
  unfold challengeAfter
  rw [decide_eq_decide.mpr h]

end

structure Facts (ethers : Ethers) (events : List Event) (s : Service) : Prop where
  known : ∀ nonce c, s.memoryChallenges.get? nonce = some c → nonce ∈ events.filterMap Event.givenOut
  stored : ∀ asked flag nonce created, Given events asked flag nonce created →
    s.memoryChallenges.get? nonce = some (challengeAfter events asked nonce created) ∧
      (asked.publishToChain = true → flag = some "true")
  answered : ∀ nonce ∈ events.filterMap Event.givenOut,
    ∃ asked flag created, Given events asked flag nonce created
  once : (events.filterMap Event.consumed).Nodup
  covered : Throughout (Covered ethers) events
  flying : ∀ run ∈ s.inFlight, Licensed events run
  licensed : ∀ run ∈ s.memoryRuns.values, Licensed events run

variable {events : List Event} {s : Service} {e : Event}

theorem Licensed.later {run : Started} (h : Licensed events run) (e : Event) : Licensed (events ++ [e]) run := by
  obtain ⟨input, now, hstarted, hrun, asked, flag, created, hgiven, hpublish, hflag⟩ := h
  exact ⟨input, now, List.mem_append_left _ hstarted, hrun, asked, flag, created,
    List.mem_append_left _ hgiven, hpublish, hflag⟩

theorem start_facts (ethers : Ethers) : Facts ethers [] .start where
  known nonce c h := by cases h
  stored asked flag nonce created h := absurd h List.not_mem_nil
  answered nonce h := absurd h List.not_mem_nil
  once := .nil
  covered := throughout_nil
  flying run h := absurd h List.not_mem_nil
  licensed run h := absurd h List.not_mem_nil

/-- an answer that leaves the challenges as they are -/
theorem Facts.same {s' : Service} (h : Facts ethers events s) (hgiven : e.givenOut = none)
    (hconsumed : e.consumed = none) (hcovered : Covered ethers events e)
    (hsame : s'.memoryChallenges = s.memoryChallenges) (hflying : ∀ run ∈ s'.inFlight, run ∈ s.inFlight)
    (hruns : ∀ run ∈ s'.memoryRuns.values, run ∈ s.inFlight ∨ run ∈ s.memoryRuns.values) :
    Facts ethers (events ++ [e]) s' := by
  have hno : (events ++ [e]).filterMap Event.consumed = events.filterMap Event.consumed := by
    rw [List.filterMap_append, List.filterMap_cons_none hconsumed, List.filterMap_nil, List.append_nil]
  have hsameGiven : (events ++ [e]).filterMap Event.givenOut = events.filterMap Event.givenOut := by
    rw [List.filterMap_append, List.filterMap_cons_none hgiven, List.filterMap_nil, List.append_nil]
  refine ⟨?_, ?_, ?_, hno ▸ h.once, throughout_concat.mpr ⟨h.covered, hcovered⟩, ?_, ?_⟩
  · intro nonce c hget
    rw [hsameGiven]
    exact h.known nonce c (hsame ▸ hget)
  · intro asked flag nonce created hmem
    have hmem : Given events asked flag nonce created := by
      rcases List.mem_append.mp hmem with hmem | hmem
      · exact hmem
      · obtain rfl := List.mem_singleton.mp hmem
        cases hgiven
    unfold challengeAfter
    rw [hno, hsame]
    exact h.stored asked flag nonce created hmem
  · intro nonce hnonce
    rw [hsameGiven] at hnonce
    obtain ⟨asked, flag, created, hmem⟩ := h.answered nonce hnonce
    exact ⟨asked, flag, created, List.mem_append_left _ hmem⟩
  · intro run hrun
    exact (h.flying run (hflying run hrun)).later e
  · intro run hrun
    rcases hruns run hrun with hrun | hrun
    · exact (h.flying run hrun).later e
    · exact (h.licensed run hrun).later e

theorem Given.mem {asked : DemoWalletChallengeRequest} {flag : Option String} {nonce : String} {created : Int}
    (h : Given events asked flag nonce created) : nonce ∈ events.filterMap Event.givenOut :=
  List.mem_filterMap.mpr ⟨_, h, rfl⟩

/-- what is consumed was given out -/
theorem consumed_given (h : Throughout (Covered ethers) events) {nonce : String}
    (hnonce : nonce ∈ events.filterMap Event.consumed) : nonce ∈ events.filterMap Event.givenOut := by
  obtain ⟨e, he, hconsumed⟩ := List.mem_filterMap.mp hnonce
  unfold Event.consumed at hconsumed
  split at hconsumed
  · obtain rfl := Option.some.inj hconsumed
    obtain ⟨before, after, rfl⟩ := List.append_of_mem he
    obtain ⟨asked, flag, created, hgiven, -⟩ := h before _ after rfl
    rw [List.filterMap_append]
    exact List.mem_append_left _ hgiven.mem
  · cases hconsumed

/-- a challenge is given out under a new nonce -/
theorem Facts.give (h : Facts ethers events s) {input : DemoWalletChallengeRequest} {flag : Option String}
    {nonce : String} {now : Int} (hfresh : nonce ∉ events.filterMap Event.givenOut)
    (hflag : input.publishToChain = true → flag = some "true") :
    Facts ethers (events ++ [(.challenge input flag nonce now, .challenged (responseFor input nonce now))])
      { s with memoryChallenges := s.memoryChallenges.set nonce (challengeFor input nonce now) } := by
  generalize he : ((.challenge input flag nonce now, .challenged (responseFor input nonce now)) : Event) = e
  have hconsumed : Event.consumed e = none := by rw [← he]; rfl
  have hgiven : Event.givenOut e = some nonce := by rw [← he]; rfl
  have hcovered : Covered ethers events e := by rw [← he]; trivial
  have hno : (events ++ [e]).filterMap Event.consumed = events.filterMap Event.consumed := by
    rw [List.filterMap_append, List.filterMap_cons_none hconsumed, List.filterMap_nil, List.append_nil]
  have hmore : (events ++ [e]).filterMap Event.givenOut = events.filterMap Event.givenOut ++ [nonce] := by
    rw [List.filterMap_append, List.filterMap_cons_some hgiven, List.filterMap_nil]
  refine ⟨?_, ?_, ?_, hno ▸ h.once, throughout_concat.mpr ⟨h.covered, hcovered⟩, ?_, ?_⟩
  · intro nonce' c hget
    rw [hmore]
    by_cases hsame : nonce' = nonce
    · exact List.mem_append_right _ (List.mem_singleton.mpr hsame)
    · rw [OrderedMap.get?_set_of_ne hsame] at hget
      exact List.mem_append_left _ (h.known nonce' c hget)
  · intro asked flag' nonce' created hmem
    unfold challengeAfter
    rw [hno]
    rcases List.mem_append.mp hmem with hmem | hmem
    · have hother : nonce' ≠ nonce := fun hsame => hfresh (hsame ▸ Given.mem hmem)
      rw [OrderedMap.get?_set_of_ne hother]
      exact h.stored asked flag' nonce' created hmem
    · have heq := (List.mem_singleton.mp hmem).trans he.symm
      cases heq
      have hunused : nonce ∉ events.filterMap Event.consumed :=
        fun hused => hfresh (consumed_given h.covered hused)
      rw [OrderedMap.get?_set_self, decide_eq_false hunused]
      exact ⟨rfl, hflag⟩
  · intro nonce' hnonce
    rw [hmore] at hnonce
    rcases List.mem_append.mp hnonce with hnonce | hnonce
    · obtain ⟨asked, flag, created, hmem⟩ := h.answered nonce' hnonce
      exact ⟨asked, flag, created, List.mem_append_left _ hmem⟩
    · obtain rfl := List.mem_singleton.mp hnonce
      exact ⟨input, flag, now, List.mem_append_right _ (List.mem_singleton.mpr he)⟩
  · intro run hrun
    exact (h.flying run hrun).later e
  · intro run hrun
    exact (h.licensed run hrun).later e

/-- the stored challenge of a nonce is one that was given out -/
theorem Facts.found (h : Facts ethers events s) {nonce : String} {c : DemoChallenge}
    (hget : s.memoryChallenges.get? nonce = some c) :
    ∃ asked flag created, Given events asked flag nonce created ∧
      c = challengeAfter events asked nonce created ∧ (asked.publishToChain = true → flag = some "true") := by
  obtain ⟨asked, flag, created, hgiven⟩ := h.answered nonce (h.known nonce c hget)
  obtain ⟨hstored, hflag⟩ := h.stored asked flag nonce created hgiven
  exact ⟨asked, flag, created, hgiven, Option.some.inj (hget.symm.trans hstored), hflag⟩

/-- a challenge is consumed -/
theorem Facts.consume (h : Facts ethers events s) {input : DemoSimulationRequest} {runId : String} {now : Int}
    {c : DemoChallenge} (hget : s.memoryChallenges.get? input.nonce = some c)
    (hc : Consumable ethers c input now) :
    Facts ethers (events ++ [(.simulate input runId now, .started)])
      { s with
        memoryChallenges := s.memoryChallenges.set input.nonce { c with used := true }
        inFlight := s.inFlight ++ [startedBy input runId] } := by
  obtain ⟨asked, flag, created, hgiven, rfl, hflag⟩ := h.found hget
  generalize he : ((.simulate input runId now, .started) : Event) = e
  have hconsumed : Event.consumed e = some input.nonce := by rw [← he]; rfl
  have hgivenOut : Event.givenOut e = none := by rw [← he]; rfl
  have hmore : (events ++ [e]).filterMap Event.consumed = events.filterMap Event.consumed ++ [input.nonce] := by
    rw [List.filterMap_append, List.filterMap_cons_some hconsumed, List.filterMap_nil]
  have hno : (events ++ [e]).filterMap Event.givenOut = events.filterMap Event.givenOut := by
    rw [List.filterMap_append, List.filterMap_cons_none hgivenOut, List.filterMap_nil, List.append_nil]
  have hunused : input.nonce ∉ events.filterMap Event.consumed := of_decide_eq_false hc.fresh
  have hmatches : Matches asked input := ⟨hc.wallet, hc.zone, hc.scenario, hc.publish⟩
  refine ⟨?_, ?_, ?_, ?_, throughout_concat.mpr ⟨h.covered, ?_⟩, ?_, ?_⟩
  · intro nonce c' hget'
    rw [hno]
    by_cases hsame : nonce = input.nonce
    · rw [hsame]
      exact hgiven.mem
    · rw [OrderedMap.get?_set_of_ne hsame] at hget'
      exact h.known nonce c' hget'
  · intro asked' flag' nonce created' hmem
    have hmem : Given events asked' flag' nonce created' := by
      rcases List.mem_append.mp hmem with hmem | hmem
      · exact hmem
      · have heq := (List.mem_singleton.mp hmem).trans he.symm
        cases heq
    obtain ⟨hstored, hflag'⟩ := h.stored asked' flag' nonce created' hmem
    refine ⟨?_, hflag'⟩
    by_cases hsame : nonce = input.nonce
    · subst hsame
      have hused : input.nonce ∈ (events ++ [e]).filterMap Event.consumed := by
        rw [hmore]
        exact List.mem_append_right _ (List.mem_singleton_self _)
      rw [OrderedMap.get?_set_self, Option.some.inj (hget.symm.trans hstored), challengeAfter_consumed hused]
    · have hother : nonce ∈ (events ++ [e]).filterMap Event.consumed ↔
          nonce ∈ events.filterMap Event.consumed := by
        rw [hmore, List.mem_append, List.mem_singleton]
        exact or_iff_left hsame
      rw [OrderedMap.get?_set_of_ne hsame, hstored, challengeAfter_same hother]
  · intro nonce hnonce
    rw [hno] at hnonce
    obtain ⟨asked', flag', created', hmem⟩ := h.answered nonce hnonce
    exact ⟨asked', flag', created', List.mem_append_left _ hmem⟩
  · rw [hmore]
    refine List.nodup_append.mpr ⟨h.once, List.nodup_singleton _, fun a ha b hb hab => ?_⟩
    rw [hab, List.mem_singleton.mp hb] at ha
    exact hunused ha
  · obtain ⟨address, hverify, haddress⟩ := hc.signer
    rw [← he]
    exact ⟨asked, flag, created, hgiven, hc.early, hmatches, address, haddress, ethers.signed hverify⟩
  · intro run hrun
    rcases List.mem_append.mp hrun with hrun | hrun
    · exact (h.flying run hrun).later e
    · obtain rfl := List.mem_singleton.mp hrun
      refine ⟨input, now, List.mem_append_right _ (List.mem_singleton.mpr he), rfl, asked, flag, created,
        List.mem_append_left _ hgiven, hc.publish, fun hlive => hflag (hc.publish.trans hlive)⟩
  · intro run hrun
    exact (h.licensed run hrun).later e

/-- **Every action keeps them**, if its nonce is new. -/
theorem step_facts (h : Facts ethers events s) (a : Action)
    (hfresh : ∀ nonce, Event.givenOut (a, (step ethers s a).2) = some nonce →
      nonce ∉ events.filterMap Event.givenOut) :
    Facts ethers (events ++ [(a, (step ethers s a).2)]) (step ethers s a).1 := by
  cases a with
  | challenge input flag nonce now =>
    unfold step at hfresh ⊢
    dsimp only at hfresh ⊢
    cases hcreate : createDemoWalletChallenge flag s.memoryChallenges input nonce now with
    | error e => exact h.same rfl rfl trivial rfl (fun _ hrun => hrun) fun _ hrun => .inr hrun
    | ok created =>
      obtain ⟨challenges, response⟩ := created
      obtain ⟨rfl, rfl, hflag⟩ := create_eq_ok hcreate
      rw [hcreate] at hfresh
      exact h.give (hfresh nonce rfl) hflag
  | simulate input runId now =>
    unfold step
    dsimp only
    cases hconsume : consumeChallenge ethers s.memoryChallenges input now with
    | error e => exact h.same rfl rfl trivial rfl (fun _ hrun => hrun) fun _ hrun => .inr hrun
    | ok challenges =>
      obtain ⟨c, hget, hc, rfl⟩ := consume_eq_ok hconsume
      exact h.consume hget hc
  | complete runId =>
    unfold step
    dsimp only
    cases hfind : s.inFlight.find? fun run => decide (run.id = runId) with
    | none => exact h.same rfl rfl trivial rfl (fun _ hrun => hrun) fun _ hrun => .inr hrun
    | some run =>
      refine h.same rfl rfl trivial rfl (fun _ hrun => List.mem_of_mem_eraseP hrun) fun run' hrun' => ?_
      obtain ⟨id, hid⟩ := OrderedMap.mem_values.mp hrun'
      rw [OrderedMap.get?_set] at hid
      split at hid
      · obtain rfl := Option.some.inj hid
        exact .inl (List.mem_of_find?_eq_some hfind)
      · exact .inr (OrderedMap.mem_values.mpr ⟨id, hid⟩)
  | fail runId =>
    exact h.same rfl rfl trivial rfl (fun _ hrun => List.mem_of_mem_eraseP hrun) fun _ hrun => .inr hrun

/-- a challenge that is not used is there for the simulation it was given out for -/
theorem Facts.usable (h : Facts ethers events s) : Usable ethers events s := by
  rintro asked flag nonce created hgiven hunused input runId now rfl ⟨hwallet, hzone, hscenario, hpublish⟩ hearly
    hsigner
  obtain ⟨hstored, -⟩ := h.stored asked flag input.nonce created hgiven
  have hconsume := consume_of_consumable now hstored
    ⟨decide_eq_false hunused, hearly, hwallet, hzone, hscenario, hpublish, hsigner⟩
  show (step ethers s (.simulate input runId now)).2 = _
  unfold step
  dsimp only
  rw [hconsume]

/-- one challenge is given out under a nonce -/
theorem given_unique (hfresh : (events.filterMap Event.givenOut).Nodup) {nonce : String} {e' : Event}
    (he : e ∈ events) (he' : e' ∈ events) (hgiven : e.givenOut = some nonce) (hgiven' : e'.givenOut = some nonce) :
    e = e' := by
  have hsymm : Std.Symm fun e e' : Event =>
      ∀ n, e.givenOut = some n → ∀ n', e'.givenOut = some n' → n ≠ n' :=
    ⟨fun _ _ h n hn n' hn' => (h n' hn' n hn).symm⟩
  by_contra hne
  exact (List.pairwise_filterMap.mp hfresh).forall he he' hne nonce hgiven nonce hgiven' rfl

theorem distinct_given (hfresh : (events.filterMap Event.givenOut).Nodup) : Distinct events := by
  intro asked flag nonce created asked' flag' nonce' created' hgiven hgiven' hline hline' hmessage
  obtain ⟨-, -, -, -, rfl⟩ := message_inj hline hline' hmessage
  have hsame := given_unique hfresh hgiven hgiven' rfl rfl
  cases hsame
  rfl

/-- **In every run whose nonces are fresh, a signature starts one simulation, the one it was given for.** -/
theorem authorized_run (ethers : Ethers) (run : List Action)
    (hfresh : ((answers (step ethers) .start run).filterMap Event.givenOut).Nodup) :
    Authorized ethers (answers (step ethers) .start run) (final (step ethers) .start run) := by
  have hfacts := run_events
    (fun events s => (events.filterMap Event.givenOut).Nodup → Facts ethers events s)
    (fun _ => start_facts ethers) ?_ run hfresh
  · exact ⟨hfacts.once, distinct_given hfresh, hfacts.covered, hfacts.licensed, hfacts.usable⟩
  · intro events s a h hnodup
    rw [List.filterMap_append] at hnodup
    obtain ⟨hbefore, -, hdisjoint⟩ := List.nodup_append.mp hnodup
    refine step_facts (h hbefore) a fun nonce hgiven hold => hdisjoint nonce hold nonce ?_ rfl
    exact List.mem_filterMap.mpr ⟨_, List.mem_singleton_self _, hgiven⟩

/-! ## a run of one judge -/

def judgeWallet : String := "0xf39Fd6e51aad88F6F4ce6aB8827279cffFb92266"

def judgeNonce : String := "6f1d2c3b-4a59-4687-9a5b-0c1d2e3f4a5b"

/-- 1 January 2026 -/
def judgeTime : Int := 1767225600000

def judgeAsked : DemoWalletChallengeRequest where
  walletAddress := judgeWallet
  zoneId := "00000000-0000-4000-8000-000000000001"
  scenario := .confirmedOutage
  publishToChain := false

def judgeMessage : String := challengeMessage judgeAsked judgeNonce (expiry judgeTime)

/-- the judge's signature of it -/
def judgeSignature : String :=
  "0x3cad08cce89908897cc16b5ef0922682299a89afc5362ad213392323e579f7e6" ++
    "69254193d294ba7ec0ae9093cbc644ef490c2906cd09a28215660b59907bf73d1c"

/-- `verifyMessage` where the judge is the only one who signs -/
def judgeEthers : Ethers where
  verifyMessage message signature :=
    if message = judgeMessage ∧ signature = judgeSignature then some judgeWallet else none
  Signed address message signature :=
    address = judgeWallet ∧ message = judgeMessage ∧ signature = judgeSignature
  signed h := by
    split at h
    · rename_i hsigned
      exact ⟨(Option.some.inj h).symm, hsigned⟩
    · cases h

def judgeInput : DemoSimulationRequest where
  walletAddress := judgeWallet
  nonce := judgeNonce
  signature := judgeSignature
  zoneId := judgeAsked.zoneId
  scenario := .confirmedOutage
  publishToChain := false

/-- the second simulation replays the signature of the first -/
def judgeRun : List Action :=
  [.challenge judgeAsked none judgeNonce judgeTime,
    .simulate judgeInput "5b0cf7a1-93d2-4f0e-8a6b-7c8d9e0f1a2b" (judgeTime + 60000), 
    .simulate judgeInput "8d2e4f60-1b3c-4d5e-9f70-a1b2c3d4e5f6" (judgeTime + 61000)]

theorem authorized_run_one :
    (answers (step judgeEthers) .start judgeRun).filterMap Event.consumed = [judgeNonce] ∧
      Authorized judgeEthers (answers (step judgeEthers) .start judgeRun)
        (final (step judgeEthers) .start judgeRun) :=
  ⟨by decide +kernel, authorized_run judgeEthers judgeRun (by decide +kernel)⟩

end Demo
