/-
# Priorities of channels that stand in for an account

`sync_api_channels` moves a channel behind the base priority by its distance to the
first card of the model and folds the result back to 1..=999.  A sum of 1000 and more
is folded to a small number again: the channel then comes before cards that it should
follow.  `foldsInOrder_iff` says for which base priorities no card gets there.
-/
import CodexRouter.ChannelSync

namespace CodexRouter

/-- A priority of a card. -/
def IsCardPriority (n : ℤ) : Prop := 1 ≤ n ∧ n ≤ 999

instance (n : ℤ) : Decidable (IsCardPriority n) := inferInstanceAs (Decidable (_ ∧ _))

/-- The priority `sync_api_channels` gives to a channel that stands in. -/
def fallbackPriority (minimumPriority apiPriority oauthPriority : ℤ) (preferOauth : Bool)
    (priority : ℤ) : ℤ :=
  displayPriority (effectiveApiPriority (displayPriority priority) (displayPriority minimumPriority)
    (displayPriority apiPriority) (displayPriority oauthPriority) preferOauth)

/-- The order of the cards is kept, and the channels stay on their side of the
accounts. -/
structure FoldsInOrder (minimum api oauth : ℤ) (preferOauth : Bool) : Prop where
  mono : ∀ p q, IsCardPriority p → IsCardPriority q → p ≤ q →
    fallbackPriority minimum api oauth preferOauth p ≤ fallbackPriority minimum api oauth preferOauth q
  behind : preferOauth = true → oauth < api → ∀ p, IsCardPriority p →
    oauth < fallbackPriority minimum api oauth preferOauth p
  before : preferOauth = false → 1 < oauth → ∀ p, IsCardPriority p →
    fallbackPriority minimum api oauth preferOauth p < oauth

section

variable {minimum api oauth p : ℤ} {preferOauth : Bool}

/-- It is the priority that a channel's account is written with. -/
theorem channelPriority_of_fallback {libs : Libs} {cfg : RouterConfig} {model : ModelConfig}
    {route : ModelRoute} (h : route.isOauthFallback = true) :
    channelPriority libs cfg model route
      = fallbackPriority (minimumPriority libs cfg model) (modelOauthRoutingPriorities cfg model.model).apiPriority
          (modelOauthRoutingPriorities cfg model.model).oauthPriority
          (modelOauthRoutingPriorities cfg model.model).preferOauth model.priority := by
  unfold channelPriority fallbackPriority
  rw [if_pos h]

/-- The sum before it is folded; nothing saturates. -/
theorem fallbackPriority_eq (hminimum : IsCardPriority minimum) (hapi : IsCardPriority api)
    (hoauth : IsCardPriority oauth) (hp : IsCardPriority p) :
    fallbackPriority minimum api oauth preferOauth p = displayPriority
      (if preferOauth = false ∧ 1 < oauth then min (api + max (p - minimum) 0) (oauth - 1)
        else api + max (p - minimum) 0) := by
  obtain ⟨hminimum, hminimum'⟩ := hminimum
  obtain ⟨hapi, hapi'⟩ := hapi
  obtain ⟨hp, hp'⟩ := hp
  have hoffset : satI32 (p - minimum) = p - minimum := satI32_of_small (by omega) (by omega)
  have hsum : satI32 (api + max (p - minimum) 0) = api + max (p - minimum) 0 :=
    satI32_of_small (by omega) (by omega)
  unfold fallbackPriority effectiveApiPriority
  dsimp only
  rw [displayPriority_of_card hp hp', displayPriority_of_card hminimum hminimum',
    displayPriority_of_card hapi hapi', displayPriority_of_card hoauth.1 hoauth.2, hoffset, hsum]
  have hpos : max (api + max (p - minimum) 0) 1 = api + max (p - minimum) 0 := by omega
  simp only [hpos, Bool.and_eq_true, Bool.not_eq_true', decide_eq_true_eq, gt_iff_lt]

/-- Below the accounts there is nothing to fold. -/
theorem fallbackPriority_of_capped (hminimum : IsCardPriority minimum) (hapi : IsCardPriority api)
    (hoauth : IsCardPriority oauth) (hp : IsCardPriority p) (hprefer : preferOauth = false) (hcap : 1 < oauth) :
    fallbackPriority minimum api oauth preferOauth p = min (api + max (p - minimum) 0) (oauth - 1) := by
  rw [fallbackPriority_eq hminimum hapi hoauth hp, if_pos ⟨hprefer, hcap⟩]
  apply displayPriority_of_card
  · have hapi := hapi.1
    omega
  · have hoauth := hoauth.2
    omega

/-- Elsewhere a sum up to 999 stays as it is. -/
theorem fallbackPriority_of_small (hminimum : IsCardPriority minimum) (hapi : IsCardPriority api)
    (hoauth : IsCardPriority oauth) (hp : IsCardPriority p) (hfree : ¬ (preferOauth = false ∧ 1 < oauth))
    (hsmall : api + max (p - minimum) 0 ≤ 999) :
    fallbackPriority minimum api oauth preferOauth p = api + max (p - minimum) 0 := by
  rw [fallbackPriority_eq hminimum hapi hoauth hp, if_neg hfree]
  apply displayPriority_of_card
  · have hapi := hapi.1
    omega
  · exact hsmall

/-- The sum 1000 is folded to the first place. -/
theorem fallbackPriority_of_thousand (hminimum : IsCardPriority minimum) (hapi : IsCardPriority api)
    (hoauth : IsCardPriority oauth) (hp : IsCardPriority p) (hfree : ¬ (preferOauth = false ∧ 1 < oauth))
    (hsum : api + max (p - minimum) 0 = 1000) :
    fallbackPriority minimum api oauth preferOauth p = 1 := by
  rw [fallbackPriority_eq hminimum hapi hoauth hp, if_neg hfree, hsum]
  rfl

/-- The order and the side are kept for every card, if and only if the channels are
capped below the accounts or their base is no later than the first card. -/
theorem foldsInOrder_iff (hminimum : IsCardPriority minimum) (hapi : IsCardPriority api)
    (hoauth : IsCardPriority oauth) :
    FoldsInOrder minimum api oauth preferOauth ↔ preferOauth = false ∧ 1 < oauth ∨ api ≤ minimum := by
  constructor
  · intro h
    by_contra hlate
    obtain ⟨hfree, hlate⟩ := not_or.mp hlate
    obtain ⟨hminimum₁, hminimum₂⟩ := hminimum
    obtain ⟨hapi₁, hapi₂⟩ := hapi
    -- The card that reaches 1000 comes before the one that reaches 999.
    have hq : IsCardPriority (minimum + (1000 - api)) := by
      constructor <;> omega
    have hp : IsCardPriority (minimum + (999 - api)) := by
      constructor <;> omega
    have hmono := h.mono _ _ hp hq (by omega)
    rw [fallbackPriority_of_thousand ⟨hminimum₁, hminimum₂⟩ ⟨hapi₁, hapi₂⟩ hoauth hq hfree (by omega),
      fallbackPriority_of_small ⟨hminimum₁, hminimum₂⟩ ⟨hapi₁, hapi₂⟩ hoauth hp hfree (by omega)] at hmono
    omega
  · intro h
    by_cases hcap : preferOauth = false ∧ 1 < oauth
    · have hfolded : ∀ p, IsCardPriority p → _ := fun p hp =>
        fallbackPriority_of_capped hminimum hapi hoauth hp hcap.1 hcap.2
      refine ⟨fun p q hp hq hle => ?_, fun hprefer => ?_, fun _ _ p hp => ?_⟩
      · rw [hfolded p hp, hfolded q hq]
        omega
      · exact absurd (hcap.1.symm.trans hprefer) Bool.false_ne_true
      · rw [hfolded p hp]
        omega
    · have hearly : api ≤ minimum := h.resolve_left hcap
      have hfolded : ∀ p, IsCardPriority p → _ := fun p hp =>
        fallbackPriority_of_small hminimum hapi hoauth hp hcap (by
          have hp := hp.2
          have hapi := hapi.2
          omega)
      refine ⟨fun p q hp hq hle => ?_, fun _ hlt p hp => ?_, fun hprefer hlt => ?_⟩
      · rw [hfolded p hp, hfolded q hq]
        omega
      · rw [hfolded p hp]
        omega
      · exact absurd ⟨hprefer, hlt⟩ hcap

/-- The accounts are numbered 100 and come first, the first card is 300: the base 200 of
the channels is early enough. -/
theorem foldsInOrder_early : FoldsInOrder 300 200 100 true :=
  (foldsInOrder_iff (by decide) (by decide) (by decide)).mpr (.inr (by decide))

/-- Behind the base 100 the card 901 is on place 1000, which is folded to the first:
before the card 900 and before the accounts. -/
theorem not_foldsInOrder_late :
    fallbackPriority 1 100 1 true 900 = 999 ∧ fallbackPriority 1 100 1 true 901 = 1
      ∧ ¬ FoldsInOrder 1 100 1 true := by
  refine ⟨by decide, by decide, fun h => ?_⟩
  have hmono := h.mono 900 901 (by decide) (by decide) (by decide)
  exact absurd hmono (by decide)

end

end CodexRouter
