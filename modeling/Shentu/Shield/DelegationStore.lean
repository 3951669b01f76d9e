import Shentu.Shield.UnbondingStore
import Shentu.Shield.Purchase
import Shentu.Lib.Shares

/-!
The delegations and the validators the staking module keeps, as far as a payout reads and writes
them, and the pools the tokens are paid from. The laws say what each keeper function does to a view
of the world, as the staking, supply and account modules document it. From them follows what one
undelegation does: it changes one delegation and its validator, and moves the tokens that the
validator gives for the shares.
-/

namespace Shentu

open Lib Table List

variable {σ : Type}

def Delegation.pair (d : Delegation) : DVPair := ⟨d.delegatorAddress, d.validatorAddress⟩

def Delegation.key (d : Delegation) : DVKey := d.pair.key

lemma Delegation.key_eq_iff {d e : Delegation} :
    d.key = e.key ↔
      d.delegatorAddress = e.delegatorAddress ∧ d.validatorAddress = e.validatorAddress := by
  unfold Delegation.key Delegation.pair
  rw [DVPair.key_inj, DVPair.mk.injEq]

namespace Validator

/-- The truncated token value of shares. -/
def value (v : Validator) (shares : Int) : Int := Dec.worth v.delegatorShares v.tokens shares

/-- The validator after shares are removed, and the tokens that are given for them: all tokens if
no shares remain. -/
def removeDelShares (v : Validator) (shares : Int) : Validator × Int :=
  let issued := Dec.redeemed v.delegatorShares v.tokens shares
  ({ v with tokens := v.tokens - issued, delegatorShares := v.delegatorShares - shares }, issued)

/-- The pool that holds the tokens of the validator. -/
def pool (v : Validator) : ModuleName :=
  if v.status = .bonded then .bondedPool else .notBondedPool

lemma tokensFromShares_eq_ok {v : Validator} {shares tokens : Int} :
    v.tokensFromShares shares = .ok tokens ↔
      v.delegatorShares ≠ 0 ∧ Dec.quo (Dec.mulInt shares v.tokens) v.delegatorShares = tokens := by
  unfold tokensFromShares decQuo
  split <;> simp [*]

lemma sharesFromTokens_eq_ok {v : Validator} {amount shares : Int} :
    v.sharesFromTokens amount = .ok shares ↔
      v.tokens ≠ 0 ∧ Dec.sharesFor v.delegatorShares v.tokens amount = shares := by
  simp only [sharesFromTokens, run_eq_ok, ne_eq]
  rfl

end Validator

structure DelegationView where
  delegations : Table Delegation.key
  validators : Table Validator.operatorAddress
  pooled : ModuleName → Int
  hasAccount : AccAddress → Bool

namespace DelegationView

def delegationsOf (v : DelegationView) (a : AccAddress) : List Delegation :=
  v.delegations.rows.filter (fun d => d.delegatorAddress = a)

/-- The validator of a delegation; where there is none, one that holds nothing. -/
def validatorOf (v : DelegationView) (d : Delegation) : Validator :=
  (v.validators.get d.validatorAddress).getD ⟨d.validatorAddress, false, .unbonded, 0, 0, 0⟩

def valueOf (v : DelegationView) (d : Delegation) : Int := (v.validatorOf d).value d.shares

/-- The coins after a payment from a pool to the shield module. -/
def pay (v : DelegationView) (m : ModuleName) (x : Int) : DelegationView :=
  { v with pooled := fun m' => v.pooled m' - (if m' = m then x else 0) +
      if m' = .shield then x else 0 }

/-- A delegation has shares, its validator exists and counts them, and holds no negative
tokens. -/
structure Backed (v : DelegationView) (d : Delegation) : Prop where
  found : v.validators.get d.validatorAddress = some (v.validatorOf d)
  shares : 0 < d.shares
  held : d.shares ≤ (v.validatorOf d).delegatorShares
  tokens : 0 ≤ (v.validatorOf d).tokens

instance (v : DelegationView) (d : Delegation) : Decidable (v.Backed d) :=
  decidable_of_iff (v.validators.get d.validatorAddress = some (v.validatorOf d) ∧ 0 < d.shares ∧
      d.shares ≤ (v.validatorOf d).delegatorShares ∧ 0 ≤ (v.validatorOf d).tokens)
    ⟨fun h => ⟨h.1, h.2.1, h.2.2.1, h.2.2.2⟩, fun h => ⟨h.found, h.shares, h.held, h.tokens⟩⟩

variable {v : DelegationView} {a : AccAddress} {d : Delegation}

lemma mem_delegationsOf :
    d ∈ v.delegationsOf a ↔ d ∈ v.delegations.rows ∧ d.delegatorAddress = a := by
  simp [delegationsOf]

lemma get_of_mem_delegationsOf (h : d ∈ v.delegationsOf a) : v.delegations.get d.key = some d :=
  Table.get_of_mem (mem_delegationsOf.mp h).1

lemma mem_delegationsOf_set {e : Delegation} (hd : d.delegatorAddress = a) :
    e ∈ { v with delegations := v.delegations.set d }.delegationsOf a ↔
      e = d ∨ e ∈ v.delegationsOf a ∧ e.validatorAddress ≠ d.validatorAddress := by
  rw [mem_delegationsOf, mem_delegationsOf, Table.mem_set, ne_eq, Delegation.key_eq_iff]
  constructor
  · rintro ⟨rfl | ⟨he, hkey⟩, ha⟩
    · exact .inl rfl
    · exact .inr ⟨⟨he, ha⟩, fun hval => hkey ⟨ha.trans hd.symm, hval⟩⟩
  · rintro (rfl | ⟨⟨he, ha⟩, hval⟩)
    · exact ⟨.inl rfl, hd⟩
    · exact ⟨.inr ⟨he, fun hkey => hval hkey.2⟩, ha⟩

lemma Backed.total_pos (h : v.Backed d) :
    0 < (v.validatorOf d).delegatorShares := h.shares.trans_le h.held

lemma Backed.value_nonneg (h : v.Backed d) :
    0 ≤ v.valueOf d := Dec.worth_nonneg h.total_pos.le h.tokens h.shares.le

lemma validatorOf_congr {v' : DelegationView}
    (h : v'.validators.get d.validatorAddress = v.validators.get d.validatorAddress) :
    v'.validatorOf d = v.validatorOf d := by
  unfold validatorOf
  rw [h]

lemma Backed.congr {v' : DelegationView} (hd : v.Backed d)
    (h : v'.validators.get d.validatorAddress = v.validators.get d.validatorAddress) :
    v'.Backed d := by
  have hval := validatorOf_congr h
  constructor
  · rw [hval, h]
    exact hd.found
  · exact hd.shares
  · rw [hval]
    exact hd.held
  · rw [hval]
    exact hd.tokens

/-- Only one validator differs. -/
structure OneValidator (valAddr : ValAddress) (v v' : DelegationView) : Prop where
  delegations : v'.delegations = v.delegations
  others : ∀ a, a ≠ valAddr → v'.validators.get a = v.validators.get a
  pooled : v'.pooled = v.pooled
  accounts : v'.hasAccount = v.hasAccount

lemma OneValidator.refl (valAddr : ValAddress) (v : DelegationView) : OneValidator valAddr v v :=
  ⟨rfl, fun _ _ => rfl, rfl, rfl⟩

lemma oneValidator_set (v : DelegationView) (val : Validator) :
    OneValidator val.operatorAddress v { v with validators := v.validators.set val } :=
  ⟨rfl, fun _ ha => get_set_of_ne _ ha, rfl, rfl⟩

lemma oneValidator_delete (v : DelegationView) (valAddr : ValAddress) :
    OneValidator valAddr v { v with validators := v.validators.delete valAddr } :=
  ⟨rfl, fun _ ha => get_delete_of_ne _ ha, rfl, rfl⟩

end DelegationView

/-- The documented behaviour of the keepers on delegations and validators, and on payments out
of the pools of staked tokens. Removing more shares than there are is a panic of the staking
module, so nothing is said about the amount then. -/
structure DelegationLaws (k : Keepers σ) where
  view : σ → DelegationView
  getAll : ∀ w a, k.getAllDelegatorDelegations w a = (view w).delegationsOf a
  getDelegation : ∀ w a valAddr, k.getDelegation w a valAddr =
    (view w).delegations.get (DVPair.key ⟨a, valAddr⟩)
  setDelegation : ∀ w d, view (k.setDelegation w d) =
    { view w with delegations := (view w).delegations.set d }
  removeDelegation : ∀ w d, view (k.removeDelegation w d) =
    { view w with delegations := (view w).delegations.delete d.key }
  getValidator : ∀ w valAddr, k.getValidator w valAddr = (view w).validators.get valAddr
  setValidator : ∀ w val, view (k.setValidator w val) =
    { view w with validators := (view w).validators.set val }
  deleteIndex : ∀ w val, view (k.deleteValidatorByPowerIndex w val) = view w
  removeValidator : ∀ w valAddr, view (k.removeValidator w valAddr) =
    { view w with validators := (view w).validators.delete valAddr }
  removeShares : ∀ w val shares,
    (k.removeValidatorTokensAndShares w val shares).2.1.operatorAddress = val.operatorAddress ∧
      DelegationView.OneValidator val.operatorAddress (view w)
        (view (k.removeValidatorTokensAndShares w val shares).1)
  removedShares : ∀ w val shares, 0 ≤ shares → shares ≤ val.delegatorShares →
    (k.removeValidatorTokensAndShares w val shares).2 = val.removeDelShares shares ∧
      view (k.removeValidatorTokensAndShares w val shares).1 =
        { view w with validators := (view w).validators.set (val.removeDelShares shares).1 }
  beforeModified : ∀ w a valAddr, view (k.beforeDelegationSharesModified w a valAddr) = view w
  beforeRemoved : ∀ w a valAddr, view (k.beforeDelegationRemoved w a valAddr) = view w
  afterModified : ∀ w a valAddr, view (k.afterDelegationModified w a valAddr) = view w
  track : ∀ w a coins w', k.trackUndelegation w a coins = some w' → view w' = view w
  tracks : ∀ w a x, (view w).hasAccount a = true → 0 ≤ x →
    (k.trackUndelegation w a (Coins.ofAmount k.bondDenom x)).isSome = true
  send : ∀ w m x w', 0 ≤ x →
    k.sendCoinsFromModuleToModule w m .shield (Coins.ofAmount k.bondDenom x) = some w' →
      view w' = (view w).pay m x
  sends : ∀ w m x, 0 ≤ x → x ≤ (view w).pooled m →
    (k.sendCoinsFromModuleToModule w m .shield (Coins.ofAmount k.bondDenom x)).isSome = true

namespace DelegationView

/-- What taking shares out of a delegation writes, besides its validator and the coins. -/
structure Undelegated (d : Delegation) (shares : Int) (v v' : DelegationView) : Prop where
  delegations : v'.delegations =
    if d.shares - shares = 0 then v.delegations.delete d.key
    else v.delegations.set { d with shares := d.shares - shares }
  others : ∀ a, a ≠ d.validatorAddress → v'.validators.get a = v.validators.get a
  accounts : v'.hasAccount = v.hasAccount

/-- The tokens that an undelegation moves leave the validator and its pool. -/
structure TokensMoved (d : Delegation) (shares : Int) (v v' : DelegationView) : Prop where
  pooled : v'.pooled = (v.pay (v.validatorOf d).pool
    (Dec.redeemed (v.validatorOf d).delegatorShares (v.validatorOf d).tokens shares)).pooled
  validator : (v.validatorOf d).delegatorShares - shares ≠ 0 →
    ∃ val, v'.validators.get d.validatorAddress = some val ∧
      val.delegatorShares = (v.validatorOf d).delegatorShares - shares ∧
      val.tokens = (v.validatorOf d).tokens -
        Dec.redeemed (v.validatorOf d).delegatorShares (v.validatorOf d).tokens shares

variable {d : Delegation} {shares : Int} {v v' : DelegationView}

lemma Undelegated.get_self (h : Undelegated d shares v v') : v'.delegations.get d.key =
      if d.shares - shares = 0 then none else some { d with shares := d.shares - shares } := by
  rw [h.delegations]
  split
  · exact get_delete_self _ _
  · exact get_set_self v.delegations { d with shares := d.shares - shares }

lemma Undelegated.get_other (h : Undelegated d shares v v') {key : DVKey} (hkey : key ≠ d.key) :
    v'.delegations.get key = v.delegations.get key := by
  rw [h.delegations]
  split
  · exact get_delete_of_ne _ hkey
  · exact get_set_of_ne v.delegations hkey

/-- Delegations to different validators that are still to be undelegated. -/
structure Pending (v : DelegationView) (dels : List Delegation) : Prop where
  stored : ∀ d ∈ dels, v.delegations.get d.key = some d
  backed : ∀ d ∈ dels, v.Backed d
  distinct : dels.Pairwise (fun d e => d.validatorAddress ≠ e.validatorAddress)

lemma Pending.head {rest : List Delegation}
    (h : v.Pending (d :: rest)) : v.delegations.get d.key = some d ∧ v.Backed d :=
  ⟨h.stored d mem_cons_self, h.backed d mem_cons_self⟩

lemma Pending.of_append {dels : List Delegation} (rest : List Delegation)
    (h : v.Pending (dels ++ rest)) : v.Pending dels :=
  ⟨fun d hd => h.stored d (mem_append_left _ hd),
    fun d hd => h.backed d (mem_append_left _ hd), (pairwise_append.mp h.distinct).1⟩

lemma Undelegated.validatorOf {e : Delegation} (h : Undelegated d shares v v')
    (hne : e.validatorAddress ≠ d.validatorAddress) : v'.validatorOf e = v.validatorOf e :=
  validatorOf_congr (h.others _ hne)

lemma Pending.tail {rest : List Delegation} (h : v.Pending (d :: rest))
    (hstep : Undelegated d shares v v') : v'.Pending rest := by
  obtain ⟨hne, hdistinct⟩ := pairwise_cons.mp h.distinct
  constructor
  · intro e he
    rw [hstep.get_other (fun hkey => hne e he (Delegation.key_eq_iff.mp hkey).2.symm)]
    exact h.stored e (mem_cons_of_mem d he)
  · intro e he
    exact (h.backed e (mem_cons_of_mem d he)).congr (hstep.others _ (hne e he).symm)
  · exact hdistinct

end DelegationView

section Undelegate

variable {k : Keepers σ} {params : PoolParams} {ctx : Ctx} {b b' : CollateralBook} {w w' : σ}

/-- The last part of an undelegation: a validator that is unbonded and has no shares left is
removed, and the tokens are moved. -/
def payIssued (k : Keepers σ) (delAddr : AccAddress) (r : σ × Validator × Int) : Except Fault σ :=
  undelegateFromAccountToShieldModule k
    (if r.2.1.delegatorShares = 0 ∧ r.2.1.status = .unbonded then
      k.removeValidator r.1 r.2.1.operatorAddress else r.1)
    r.2.1.pool delAddr (Coins.ofAmount k.bondDenom r.2.2)

lemma undelegateShares_eq_ok {delAddr : AccAddress} {valAddr : ValAddress} {shares : Int} :
    undelegateShares k params ctx b w delAddr valAddr shares = .ok (b', w') ↔
      ∃ d val w1 val1 w2, k.getDelegation w delAddr valAddr = some d ∧
        k.getValidator (k.beforeDelegationSharesModified w delAddr valAddr) valAddr = some val ∧
        jailBelowMinSelfDelegation k (k.beforeDelegationSharesModified w delAddr valAddr) valAddr
          val { d with shares := d.shares - shares } = .ok (w1, val1) ∧
        updateDelegationRecord k params ctx b w1 { d with shares := d.shares - shares } =
          .ok (b', w2) ∧
        0 ≤ (k.removeValidatorTokensAndShares w2 val1 shares).2.2 ∧
        payIssued k delAddr (k.removeValidatorTokensAndShares w2 val1 shares) = .ok w' := by
  simp only [undelegateShares, run_eq_ok, orPanic_eq_ok, newCoins_eq_ok]
  constructor
  · rintro ⟨d, hd, val, hval, ⟨w1, val1⟩, hjail, ⟨b1, w2⟩, hrecord, coins, ⟨hnonneg, rfl⟩, w3, hpay,
      heq⟩
    cases heq
    exact ⟨d, val, w1, val1, w2, hd, hval, hjail, hrecord, hnonneg, hpay⟩
  · rintro ⟨d, val, w1, val1, w2, hd, hval, hjail, hrecord, hnonneg, hpay⟩
    exact ⟨d, hd, val, hval, ⟨w1, val1⟩, hjail, ⟨b', w2⟩, hrecord, _, ⟨hnonneg, rfl⟩, w', hpay, rfl⟩

end Undelegate

namespace DelegationLaws

variable {k : Keepers σ} (L : DelegationLaws k) {params : PoolParams} {ctx : Ctx}
  {b b' : CollateralBook} {w w' : σ}

variable {d : Delegation}

/-- Jailing is a change of the validator's flag, which the caller goes on with. -/
lemma jailBelowMinSelfDelegation_view {valAddr : ValAddress} {val val' : Validator}
    (hval : (L.view w).validators.get valAddr = some val)
    (h : jailBelowMinSelfDelegation k w valAddr val d = .ok (w', val')) :
    (∃ jailed, val' = { val with jailed := jailed }) ∧
      (L.view w').validators.get valAddr = some val' ∧
      DelegationView.OneValidator valAddr (L.view w) (L.view w') := by
  have hunchanged : (∃ jailed, val = { val with jailed := jailed }) ∧
      (L.view w).validators.get valAddr = some val ∧
      DelegationView.OneValidator valAddr (L.view w) (L.view w) :=
    ⟨⟨val.jailed, rfl⟩, hval, DelegationView.OneValidator.refl _ _⟩
  obtain rfl : val.operatorAddress = valAddr := key_of_get hval
  unfold jailBelowMinSelfDelegation at h
  split at h
  · simp only [bind_eq_ok] at h
    obtain ⟨tokens, -, h⟩ := h
    split at h
    · simp only [run_eq_ok, L.getValidator, L.deleteIndex, L.setValidator] at h
      obtain ⟨val1, hget, heq⟩ := h
      cases heq
      have hself := get_set_self (L.view w).validators { val with jailed := true }
      cases hself.symm.trans hget
      refine ⟨⟨true, rfl⟩, ?_, ?_⟩
      · rw [L.deleteIndex, L.setValidator]
        exact hself
      · rw [L.deleteIndex, L.setValidator]
        exact DelegationView.oneValidator_set _ { val with jailed := true }
    · cases h
      exact hunchanged
  · cases h
    exact hunchanged

lemma updateDelegationRecord_view (h : updateDelegationRecord k params ctx b w d = .ok (b', w')) :
    L.view w' = { L.view w with
      delegations := if d.shares = 0 then (L.view w).delegations.delete d.key
        else (L.view w).delegations.set d } := by
  unfold updateDelegationRecord at h
  split at h
  · rename_i hzero
    simp only [run_eq_ok] at h
    obtain ⟨b1, -, heq⟩ := h
    cases heq
    rw [L.removeDelegation, L.beforeRemoved, if_pos hzero]
  · rename_i hzero
    simp only [run_eq_ok] at h
    obtain ⟨b1, -, heq⟩ := h
    cases heq
    rw [L.afterModified, L.setDelegation, if_neg hzero]

lemma undelegateFromAccountToShieldModule_view {m : ModuleName} {a : AccAddress} {x : Int}
    (hx : 0 ≤ x) (h : undelegateFromAccountToShieldModule k w m a
      (Coins.ofAmount k.bondDenom x) = .ok w') : L.view w' = (L.view w).pay m x := by
  simp only [undelegateFromAccountToShieldModule, run_eq_ok] at h
  obtain ⟨w1, htrack, hsend⟩ := h
  rw [L.send _ _ _ _ hx hsend, L.track _ _ _ _ htrack]

lemma payIssued_view {a : AccAddress} {r : σ × Validator × Int} (hr : 0 ≤ r.2.2)
    (h : payIssued k a r = .ok w') :
    ∃ v, DelegationView.OneValidator r.2.1.operatorAddress (L.view r.1) v ∧
      (r.2.1.delegatorShares ≠ 0 → v = L.view r.1) ∧ L.view w' = v.pay r.2.1.pool r.2.2 := by
  have hview := L.undelegateFromAccountToShieldModule_view hr h
  split at hview
  · rename_i hempty
    refine ⟨_, ?_, fun hne => absurd hempty.1 hne, hview⟩
    rw [L.removeValidator]
    exact DelegationView.oneValidator_delete _ _
  · exact ⟨_, DelegationView.OneValidator.refl _ _, fun _ => rfl, hview⟩

/-- One undelegation, read from the stored delegation and its validator. -/
lemma undelegateShares_view {shares : Int}
    (hd : (L.view w).delegations.get d.key = some d)
    (hval : (L.view w).validators.get d.validatorAddress = some ((L.view w).validatorOf d))
    (h : undelegateShares k params ctx b w d.delegatorAddress d.validatorAddress shares =
      .ok (b', w')) :
    DelegationView.Undelegated d shares (L.view w) (L.view w') ∧
      (0 ≤ shares → shares ≤ ((L.view w).validatorOf d).delegatorShares →
        DelegationView.TokensMoved d shares (L.view w) (L.view w')) := by
  have hbefore := L.beforeModified w d.delegatorAddress d.validatorAddress
  obtain ⟨d1, val, w1, val1, w2, hget, hget', hjail, hrecord, hnonneg, hpay⟩ :=
    undelegateShares_eq_ok.mp h
  rw [L.getDelegation] at hget
  rw [L.getValidator, hbefore] at hget'
  cases hget.symm.trans hd
  cases hget'.symm.trans hval
  obtain ⟨⟨jailed, hval1⟩, hstored, hone⟩ :=
    L.jailBelowMinSelfDelegation_view (hbefore ▸ hval) hjail
  have hview2 := L.updateDelegationRecord_view hrecord
  have haddr : val1.operatorAddress = d.validatorAddress := key_of_get hstored
  obtain ⟨hsame, hremoved⟩ := L.removeShares w2 val1 shares
  obtain ⟨v, hv, hkept, hview⟩ := L.payIssued_view hnonneg hpay
  rw [hsame, haddr] at hv
  rw [haddr, hview2] at hremoved
  rw [hbefore] at hone
  constructor
  · constructor
    · rw [hview]
      exact hv.delegations.trans (hremoved.delegations.trans (by rw [hone.delegations]; rfl))
    · intro a ha
      rw [hview]
      exact (hv.others a ha).trans ((hremoved.others a ha).trans (hone.others a ha))
    · rw [hview]
      exact hv.accounts.trans (hremoved.accounts.trans hone.accounts)
  · intro hshares hle
    have htotal : val1.delegatorShares = ((L.view w).validatorOf d).delegatorShares := by
      rw [hval1]
    have htokens : val1.tokens = ((L.view w).validatorOf d).tokens := by
      rw [hval1]
    have hpool : val1.pool = ((L.view w).validatorOf d).pool := by
      rw [hval1]
      rfl
    obtain ⟨hresult, hwritten⟩ := L.removedShares w2 val1 shares hshares (htotal ▸ hle)
    rw [hresult] at hview hkept
    constructor
    · rw [hview, ← hpool, ← htotal, ← htokens]
      have hpooled := hv.pooled.trans (hremoved.pooled.trans hone.pooled)
      unfold DelegationView.pay
      rw [hpooled]
      rfl
    · intro hne
      have hsame := hkept (by
        rw [← htotal] at hne
        exact hne)
      refine ⟨(val1.removeDelShares shares).1, ?_, ?_, ?_⟩
      · rw [hview, hsame, hwritten, ← haddr]
        exact get_set_self _ (val1.removeDelShares shares).1
      · rw [← htotal]
        rfl
      · rw [← htotal, ← htokens]
        rfl

end DelegationLaws

end Shentu
