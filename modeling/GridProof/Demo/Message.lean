import GridProof.Demo.Challenges
import GridProof.Lib.Cut

/-!
# The message of a challenge

* `message_toList`   it is nine lines, and the expiry;
* `message_inj`      so it says whose challenge it is, and for what.
-/

namespace Demo
open Ingestion (DemoScenario)

/-- the lines before the expiry -/
def messageLines (input : DemoWalletChallengeRequest) (nonce : String) : List String :=
  ["GridProof Judge Demo", "", "Authorize one synthetic telemetry simulation.",
    authorization input.publishToChain,
    "Wallet: " ++ JsText.asciiLower input.walletAddress,
    "Zone: " ++ input.zoneId,
    "Scenario: " ++ scenarioText input.scenario,
    "Chain mode: " ++ chainMode input.publishToChain,
    "Nonce: " ++ nonce]

theorem message_toList (input : DemoWalletChallengeRequest) (nonce : String) (expiresAt : Int) :
    (challengeMessage input nonce expiresAt).toList =
      Cut.lines '\n' ((messageLines input nonce).map String.toList)
        ("Expires: " ++ Calendar.isoMillis expiresAt).toList := by
  rw [← Cut.intercalate_lines]
  exact String.toList_intercalate

/-! ## no line is broken -/

theorem no_break_lower {s : String} (h : '\n' ∉ s.toList) : '\n' ∉ (JsText.asciiLower s).toList := by
  unfold JsText.asciiLower
  rw [String.toList_ofList]
  intro hmem
  obtain ⟨c, hc, hlower⟩ := List.mem_map.mp hmem
  unfold Char.toLower at hlower
  split at hlower
  · -- a small letter is no line break
    rename_i hupper
    have hval : c.val + 32 = 10 := congrArg Char.val hlower
    have hle : 65 ≤ c.val := hupper.1
    have hle' : c.val ≤ 90 := hupper.2
    grind
  · exact h (hlower ▸ hc)

theorem no_break_append {s t : String} (hs : '\n' ∉ s.toList) (ht : '\n' ∉ t.toList) : '\n' ∉ (s ++ t).toList := by
  rw [String.toList_append]
  exact List.not_mem_append hs ht

theorem no_break_authorization (publish : Bool) : '\n' ∉ (authorization publish).toList := by
  cases publish with
  | false => decide +kernel
  | true => decide +kernel

theorem no_break_scenario (scenario : DemoScenario) : '\n' ∉ (scenarioText scenario).toList := by
  cases scenario <;> decide +kernel

theorem no_break_chainMode (publish : Bool) : '\n' ∉ (chainMode publish).toList := by
  cases publish <;> decide +kernel

theorem messageLines_length (input : DemoWalletChallengeRequest) (nonce : String) :
    ((messageLines input nonce).map String.toList).length = 9 := rfl

theorem messageLines_unbroken {input : DemoWalletChallengeRequest} {nonce : String} (h : OneLine input nonce) :
    ∀ l ∈ (messageLines input nonce).map String.toList, '\n' ∉ l := by
  intro l hl
  obtain ⟨line, hline, rfl⟩ := List.mem_map.mp hl
  simp only [messageLines, List.mem_cons, List.not_mem_nil, or_false] at hline
  rcases hline with rfl | rfl | rfl | rfl | rfl | rfl | rfl | rfl | rfl
  · decide +kernel
  · decide +kernel
  · decide +kernel
  · exact no_break_authorization _
  · exact no_break_append (by decide +kernel) (no_break_lower h.wallet)
  · exact no_break_append (by decide +kernel) h.zone
  · exact no_break_append (by decide +kernel) (no_break_scenario _)
  · exact no_break_append (by decide +kernel) (no_break_chainMode _)
  · exact no_break_append (by decide +kernel) h.nonce

/-! ## what a message says -/

theorem scenarioText_inj {a b : DemoScenario} (h : scenarioText a = scenarioText b) : a = b := by
  cases a <;> cases b <;> first | rfl | exact absurd h (by decide +kernel)

theorem chainMode_inj {a b : Bool} (h : chainMode a = chainMode b) : a = b := by
  cases a <;> cases b <;> first | rfl | exact absurd h (by decide +kernel)

/-- **The message says whose challenge it is, and for what.** -/
theorem message_inj {asked asked' : DemoWalletChallengeRequest} {nonce nonce' : String} {expiresAt expiresAt' : Int}
    (h : OneLine asked nonce) (h' : OneLine asked' nonce')
    (heq : challengeMessage asked nonce expiresAt = challengeMessage asked' nonce' expiresAt') :
    JsText.asciiLower asked.walletAddress = JsText.asciiLower asked'.walletAddress ∧
      asked.zoneId = asked'.zoneId ∧ asked.scenario = asked'.scenario ∧
      asked.publishToChain = asked'.publishToChain ∧ nonce = nonce' := by
  have hlines := congrArg String.toList heq
  rw [message_toList, message_toList] at hlines
  have hlen := (messageLines_length asked nonce).trans (messageLines_length asked' nonce').symm
  obtain ⟨hlines, -⟩ := Cut.lines_inj hlen (messageLines_unbroken h) (messageLines_unbroken h') hlines
  have hlines := List.map_injective_iff.mpr (fun _ _ => String.toList_inj.mp) hlines
  simp only [messageLines, List.cons.injEq, true_and, and_true, String.append_right_inj] at hlines
  obtain ⟨-, hwallet, hzone, hscenario, hmode, hnonce⟩ := hlines
  exact ⟨hwallet, hzone, scenarioText_inj hscenario, chainMode_inj hmode, hnonce⟩

end Demo
