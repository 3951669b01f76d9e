import Shentu.TwoRounds
import Shentu.Shield.WorldWrites

/-!
The coins of the gov account and the deposits in the gov store. Nothing is assumed about
the supply keeper but that it moves the coins it is asked to move, and about the other
modules but that they take no coins out of the gov account. The account then holds the
stored deposits, and the total of a proposal that has not ended is the sum of its deposits.
-/

namespace Shentu

open Lib List Coins Table

variable {σ : Type}

/-- The events in which the gov module does not act write only what the shield module writes. -/
lemma exec_writes {k : ChainKeepers σ} {c c' : Chain σ} {e : Event σ} (hsound : ChainSound c)
    (he : e.isGov = false) (houtside : ∀ world, e ≠ .action (.outside world))
    (h : exec k c e = .ok c') : KeeperWrites k.toKeepers c.shield.world c'.shield.world := by
  have hmoves : ∀ {s : ShieldState σ}, ShieldMoves k.toKeepers MoveRules.any c.ctx c.shield s →
      KeeperWrites k.toKeepers c.shield.world s.world := fun hs => ShieldMoves.writes hs
  cases exec_executed h with
  | govEnd => cases he
  | outside world => exact absurd rfl (houtside world)
  | shieldEnd hend =>
    exact hmoves (endBlocker_moves hsound.rate (fun _ => trivial) (fun _ _ _ _ _ => trivial) hend)
  | fund hfund => exact hmoves (fundShieldBlockRewards_moves trivial hfund)
  | @tx msg _ htx =>
    simp only [deliverTx, bind_eq_ok] at htx
    obtain ⟨⟨⟩, hvalid, hmsg⟩ := htx
    unfold handleMsg at hmsg
    split at hmsg
    · cases he
    · cases he
    · simp only [run_eq_ok] at hmsg
      obtain ⟨s, hshield, rfl⟩ := hmsg
      have hallowed : MsgAllowed k ChainRules.any msg := by
        unfold MsgAllowed
        split <;> simp [ChainRules.any, MoveRules.any]
      exact hmoves (handleShieldMsg_moves hsound.rate (fun _ => trivial) hallowed hvalid hshield)
  | _ => exact .refl

/-- The balance of the gov account in one denomination: the supply keeper moves what it is asked
to, and the writes of the other modules take nothing out of the account. -/
structure GovAccount (k : ChainKeepers σ) (denom : Denom) (balance : σ → Int) : Prop where
  deposit : ∀ {w w' : σ} {a : AccAddress} {coins : Coins},
    k.sendCoinsFromAccountToModule w a .gov coins = some w' →
    balance w' = balance w + coins.amountOf denom
  refund : ∀ {w w' : σ} {a : AccAddress} {coins : Coins},
    k.sendCoinsFromModuleToAccount w .gov a coins = some w' →
    balance w' = balance w - coins.amountOf denom
  burn : ∀ {w w' : σ} {coins : Coins}, k.burnCoins w .gov coins = some w' →
    balance w' = balance w - coins.amountOf denom
  write : ∀ {w w' : σ}, KeeperWrite k.toKeepers w w' → balance w ≤ balance w'
  execute : ∀ {w w' : σ} {content : Content}, k.executeContent w content = some w' →
    balance w ≤ balance w'

/-- The other modules take nothing out of the gov account, and a proposal that passes without a
settlement has no deposits. -/
def depositRules (balance : σ → Int) : GovRules σ where
  other w w' := balance w ≤ balance w'
  unsettled g id := g.depositsOf id = []

section Account

variable {k : ChainKeepers σ} {denom : Denom} {balance : σ → Int}

lemma GovAccount.writes (h : GovAccount k denom balance) {w w' : σ}
    (hwrites : KeeperWrites k.toKeepers w w') : balance w ≤ balance w' := by
  induction hwrites with
  | refl => exact le_refl _
  | tail _ hwrite ih => exact ih.trans (h.write hwrite)

lemma GovAccount.worldKept (h : GovAccount k denom balance) :
    WorldKept k (depositRules balance).other where
  refl _ := le_refl _
  execute hexecute := h.execute hexecute
  secure hsecure := h.writes (UnbondingWrites.keeper (secureCollaterals_writes hsecure))
  pay hpay := h.writes (createReimbursement_writes hpay)

/-- The coins of some deposits. -/
def coinsOf (ds : List Deposit) (denom : Denom) : Int :=
  (ds.map (fun d => d.amount.amountOf denom)).sum

lemma uses_balance {use : σ → Deposit → Option σ}
    (huse : ∀ {w w' : σ} {d : Deposit}, use w d = some w' →
      balance w' = balance w - d.amount.amountOf denom)
    {ds : List Deposit} {w w' : σ} (h : Uses use ds w w') :
    balance w' = balance w - coinsOf ds denom := by
  induction ds generalizing w with
  | nil =>
    cases h
    exact (sub_zero _).symm
  | cons d ds ih =>
    rw [Uses, foldlM_cons] at h
    obtain ⟨w1, hfirst, hrest⟩ := Option.bind_eq_some_iff.mp h
    rw [ih hrest, huse hfirst, coinsOf, coinsOf, map_cons, sum_cons]
    omega

end Account

/-- What the chain expects of the deposits in the store. -/
structure DepositsHeld (denom : Denom) (balance : σ → Int) (g : GovState) (w : σ) : Prop where
  held : g.deposits.total (fun d => d.amount.amountOf denom) ≤ balance w
  valid : ∀ d ∈ g.deposits.rows, Coins.isValid d.amount
  owned : ∀ d ∈ g.deposits.rows, ∃ p, g.getProposal d.proposalID = some p ∧ p.isFinal = false
  totals : ∀ id p, g.getProposal id = some p → p.isFinal = false → Coins.isValid p.totalDeposit ∧
    ∀ denom, p.totalDeposit.amountOf denom = coinsOf (g.depositsOf id) denom

variable (g : GovState)

lemma coinsOf_depositsOf (id : Nat) (denom : Denom) : coinsOf (g.depositsOf id) denom =
      g.deposits.total (fun d => if d.proposalID = id then d.amount.amountOf denom else 0) := by
  have h := g.deposits.total_filter (fun d => decide (d.proposalID = id))
    (fun d => d.amount.amountOf denom)
  simp only [decide_eq_true_eq] at h
  exact h

/-- The deposits of a proposal leave the store, and the proposal ends. -/
structure Closing (g g' : GovState) (id : Nat) : Prop where
  deposits : g'.deposits = (g.settled id).deposits
  only : OnlyProposal id g g'
  ended : ∀ p, g'.getProposal id = some p → p.isFinal = true
  next : g'.nextProposalID = g.nextProposalID

variable {id : Nat} {p : Proposal} {status : ProposalStatus}

lemma depositsOf_settled {id' : Nat} (hne : id' ≠ id) :
    (g.settled id).depositsOf id' = g.depositsOf id' := by
  simp only [GovState.depositsOf, GovState.settled, Table.filter, filter_filter]
  refine filter_congr ?_
  intro d _
  by_cases hd : d.proposalID = id' <;> simp [hd, hne]

lemma settled_of_nil {g : GovState} (h : g.depositsOf id = []) :
    (g.settled id).deposits = g.deposits := by
  refine ext_rows (filter_eq_self.mpr ?_)
  intro d hd
  simpa using filter_eq_nil_iff.mp h d hd

lemma isFinal_status (hstatus : status = .passed ∨ status = .failed ∨ status = .rejected) :
    Proposal.isFinal { p with status := status } = true := by
  rcases hstatus with rfl | rfl | rfl <;> rfl

lemma closing_closedGov (p : Proposal)
    (hstatus : status = .passed ∨ status = .failed ∨ status = .rejected) :
    Closing g (closedGov (g.settled p.proposalID) p status) p.proposalID where
  deposits := rfl
  only := onlyProposal_settled g p status
  ended := by
    intro q hq
    have hget : (closedGov (g.settled p.proposalID) p status).getProposal p.proposalID =
      some { p with status := status } := get_set_self _ _
    cases hget.symm.trans hq
    exact isFinal_status hstatus
  next := rfl

lemma closing_early {g : GovState} (hstatus : status = .passed ∨ status = .failed)
    (hnil : g.depositsOf p.proposalID = []) : Closing g (closedGov g p status) p.proposalID where
  deposits := (settled_of_nil hnil).symm
  only := onlyProposal_closedGov g p status
  ended := (closing_closedGov g p (hstatus.imp_right .inl)).ended
  next := rfl

lemma closing_removed (p : Proposal) :
    Closing g ((g.removed p).settled p.proposalID) p.proposalID where
  deposits := rfl
  only _ hne := get_delete_of_ne _ hne
  ended := by
    intro q hq
    have hget : ((g.removed p).settled p.proposalID).getProposal p.proposalID = none :=
      get_delete_self _ _
    cases hget.symm.trans hq
  next := rfl

namespace DepositsHeld

variable {denom : Denom} {balance : σ → Int} {g g' : GovState} {w w' : σ}

lemma empty (params : GovParams) (hw : 0 ≤ balance w) :
    DepositsHeld denom balance (GovState.empty params) w where
  held := hw
  valid := by simp [GovState.empty]
  owned := by simp [GovState.empty]
  totals := by
    intro id p hp
    cases hp

lemma world (h : DepositsHeld denom balance g w)
    (hw : balance w ≤ balance w') : DepositsHeld denom balance g w' :=
  ⟨h.held.trans hw, h.valid, h.owned, h.totals⟩

/-- A change of proposals that leaves their deposits alone and ends none. -/
lemma proposals (h : DepositsHeld denom balance g w) (hdeposits : g'.deposits = g.deposits)
    (hlive : ∀ id p, g.getProposal id = some p → p.isFinal = false →
      ∃ p', g'.getProposal id = some p' ∧ p'.isFinal = false)
    (htotals : ∀ id p', g'.getProposal id = some p' → p'.isFinal = false →
      (p'.totalDeposit = [] ∧ g.depositsOf id = []) ∨
      ∃ p, g.getProposal id = some p ∧ p.isFinal = false ∧ p'.totalDeposit = p.totalDeposit) :
    DepositsHeld denom balance g' w where
  held := by
    rw [hdeposits]
    exact h.held
  valid := by
    rw [hdeposits]
    exact h.valid
  owned := by
    rw [hdeposits]
    intro d hd
    obtain ⟨p, hp, hfinal⟩ := h.owned d hd
    exact hlive _ p hp hfinal
  totals := by
    intro id p' hp' hfinal'
    have hof : g'.depositsOf id = g.depositsOf id := by rw [GovState.depositsOf, hdeposits]; rfl
    rw [hof]
    rcases htotals id p' hp' hfinal' with ⟨htotal, hnil⟩ | ⟨p, hp, hfinal, htotal⟩
    · rw [htotal, hnil]
      exact ⟨by decide, fun _ => rfl⟩
    · rw [htotal]
      exact h.totals id p hp hfinal

lemma setProposal (h : DepositsHeld denom balance g w) {p p' : Proposal}
    (hp : g.getProposal p.proposalID = some p) (hdeposits : g'.deposits = g.deposits)
    (honly : OnlyProposal p.proposalID g g') (hp' : g'.getProposal p.proposalID = some p')
    (hfinal : p.isFinal = false) (hfinal' : p'.isFinal = false)
    (htotal : p'.totalDeposit = p.totalDeposit) : DepositsHeld denom balance g' w := by
  refine h.proposals hdeposits ?_ ?_
  · intro id q hq hlive
    by_cases hid : id = p.proposalID
    · subst hid
      exact ⟨p', hp', hfinal'⟩
    · exact ⟨q, (honly id hid).trans hq, hlive⟩
  · intro id q' hq' hlive'
    right
    by_cases hid : id = p.proposalID
    · subst hid
      cases hp'.symm.trans hq'
      exact ⟨p, hp, hfinal, htotal⟩
    · exact ⟨q', (honly id hid).symm.trans hq', hlive', rfl⟩

/-- A new proposal has no deposits. -/
lemma newProposal (h : DepositsHeld denom balance g w) (hsound : GovSound g) (ctx : Ctx)
    (content : Content) (proposer : AccAddress) (isCouncilMember : Bool) :
    DepositsHeld denom balance (g.newProposal ctx content proposer isCouncilMember).2 w := by
  have hfresh : g.getProposal g.nextProposalID = none := by
    cases hp : g.getProposal g.nextProposalID with
    | none => rfl
    | some p => exact absurd ((hsound _).fresh p hp) (lt_irrefl _)
  have hget : ∀ id, (g.newProposal ctx content proposer isCouncilMember).2.getProposal id =
      if id = g.nextProposalID then
        some (g.newProposal ctx content proposer isCouncilMember).1 else g.getProposal id :=
    fun id => get_set _ _ id
  refine h.proposals rfl ?_ ?_
  · intro id p hp hlive
    have hne : id ≠ g.nextProposalID := by
      rintro rfl
      cases hfresh.symm.trans hp
    exact ⟨p, by rw [hget, if_neg hne, hp], hlive⟩
  · intro id p' hp' hlive'
    rw [hget] at hp'
    split at hp'
    · rename_i hid
      cases hp'
      refine .inl ⟨rfl, filter_eq_nil_iff.mpr ?_⟩
      intro d hd hdid
      obtain ⟨p, hp, -⟩ := h.owned d hd
      rw [of_decide_eq_true hdid, hid, hfresh] at hp
      cases hp
    · exact .inr ⟨p', hp', hlive', rfl⟩

end DepositsHeld

/-- The record of a depositor after a further deposit. -/
lemma upsertDeposit_cases (id : Nat) (depositor : AccAddress) (amount : Coins)
    (hvalid : ∀ d ∈ g.deposits.rows, Coins.isValid d.amount) (hamount : Coins.isValid amount) :
    ∃ d : Deposit, g.upsertDeposit id depositor amount = { g with deposits := g.deposits.set d } ∧
      d.proposalID = id ∧ d.key = toLex (id, depositor) ∧ Coins.isValid d.amount ∧
      ∀ denom, d.amount.amountOf denom = amount.amountOf denom +
        g.deposits.valueAt (fun d => d.amount.amountOf denom) (toLex (id, depositor)) := by
  unfold GovState.upsertDeposit
  cases hget : g.deposits.get (toLex (id, depositor)) with
  | none =>
    refine ⟨⟨id, depositor, amount⟩, rfl, rfl, rfl, hamount, ?_⟩
    intro denom
    rw [valueAt_of_get_none hget, add_zero]
  | some d =>
    have hkey : d.key = toLex (id, depositor) := key_of_get hget
    have hd := hvalid d (mem_of_get hget)
    refine ⟨{ d with amount := d.amount.add amount }, rfl, ?_, hkey, isValid_add hd hamount,
      ?_⟩
    · exact congrArg Prod.fst (toLex_inj.mp hkey)
    · intro denom
      rw [valueAt_of_get hget, amountOf_add hd hamount]
      exact add_comm _ _

/-- A sum over the records grows by what it counts of a further deposit. -/
lemma total_set_deposit (deposits : Table Deposit.key) {d : Deposit}
    {depositor : AccAddress} {amount : Coins} (hid : d.proposalID = id)
    (hkey : d.key = toLex (id, depositor))
    (hsum : ∀ denom, d.amount.amountOf denom = amount.amountOf denom +
      deposits.valueAt (fun d => d.amount.amountOf denom) (toLex (id, depositor)))
    (denom : Denom) (counted : Nat → Prop) [DecidablePred counted] :
    (deposits.set d).total
        (fun d => if counted d.proposalID then d.amount.amountOf denom else 0) =
      deposits.total (fun d => if counted d.proposalID then d.amount.amountOf denom else 0) +
        if counted id then amount.amountOf denom else 0 := by
  have hold : deposits.valueAt
      (fun d => if counted d.proposalID then d.amount.amountOf denom else 0) d.key =
      if counted id then
        deposits.valueAt (fun d => d.amount.amountOf denom) (toLex (id, depositor))
      else 0 := by
    rw [hkey]
    cases hget : deposits.get (toLex (id, depositor)) with
    | none => simp [valueAt_of_get_none hget]
    | some d' =>
      have hkey' : d'.key = toLex (id, depositor) := key_of_get hget
      have hid' : d'.proposalID = id := congrArg Prod.fst (toLex_inj.mp hkey')
      rw [valueAt_of_get hget, valueAt_of_get hget, hid']
  rw [total_set, hold, hid, hsum denom]
  split <;> omega

section Upsert

variable {g : GovState} (hvalid : ∀ d ∈ g.deposits.rows, Coins.isValid d.amount) {amount : Coins}
  (hamount : Coins.isValid amount) (id : Nat) (depositor : AccAddress)

include hvalid hamount

lemma upsertDeposit_valid :
    ∀ d ∈ (g.upsertDeposit id depositor amount).deposits.rows, Coins.isValid d.amount := by
  obtain ⟨d, hupsert, -, -, hd, -⟩ := upsertDeposit_cases g id depositor amount hvalid hamount
  rw [hupsert]
  exact forall_mem_set hd hvalid

lemma coinsOf_upsertDeposit (id' : Nat) (denom : Denom) :
    coinsOf ((g.upsertDeposit id depositor amount).depositsOf id') denom =
      coinsOf (g.depositsOf id') denom + if id = id' then amount.amountOf denom else 0 := by
  obtain ⟨d, hupsert, hid, hkey, -, hsum⟩ := upsertDeposit_cases g id depositor amount hvalid
    hamount
  rw [coinsOf_depositsOf, coinsOf_depositsOf, hupsert]
  exact total_set_deposit g.deposits hid hkey hsum denom (fun i => i = id')

end Upsert

namespace DepositsHeld

variable {denom : Denom} {balance : σ → Int} {g g' : GovState} {w w' : σ}

/-- A deposit is paid into the account and added to the total of its proposal. -/
lemma deposit (h : DepositsHeld denom balance g w) {p : Proposal} (hp : InPeriod g p .depositPeriod)
    {depositor : AccAddress} {amount : Coins} (hamount : Coins.isValid amount)
    (hw : balance w' = balance w + amount.amountOf denom) :
    DepositsHeld denom balance ((g.setProposal { p with
      totalDeposit := p.totalDeposit.add amount }).upsertDeposit p.proposalID depositor amount)
      w' := by
  obtain ⟨d, hupsert, hid, hkey, -, hsum⟩ := upsertDeposit_cases (g.setProposal { p with
    totalDeposit := p.totalDeposit.add amount }) p.proposalID depositor amount h.valid hamount
  have hlive : p.isFinal = false := by simp [Proposal.isFinal, hp.status]
  have hlive' : Proposal.isFinal { p with totalDeposit := p.totalDeposit.add amount } = false := by
    simp [Proposal.isFinal, hp.status]
  have hget : ∀ id', ((g.setProposal
      { p with totalDeposit := p.totalDeposit.add amount }).upsertDeposit
      p.proposalID depositor amount).getProposal id' =
      if id' = p.proposalID then some { p with totalDeposit := p.totalDeposit.add amount }
      else g.getProposal id' := by
    intro id'
    rw [hupsert]
    exact get_set _ _ id'
  refine ⟨?_, ?_, ?_, ?_⟩
  · rw [hupsert]
    have hall := total_set_deposit g.deposits hid hkey hsum denom (fun _ => True)
    simp only [if_true] at hall
    have hheld := h.held
    rw [hw]
    exact hall.le.trans (by omega)
  · exact upsertDeposit_valid h.valid hamount p.proposalID depositor
  · have howned : ∀ d' ∈ (g.deposits.set d).rows, d'.proposalID = p.proposalID ∨
        d' ∈ g.deposits.rows := by
      exact forall_mem_set (.inl hid) (fun d' hd' => .inr hd')
    intro d' hd'
    rw [hget]
    rw [hupsert] at hd'
    by_cases hself : d'.proposalID = p.proposalID
    · exact ⟨_, if_pos hself, hlive'⟩
    · rw [if_neg hself]
      exact h.owned d' ((howned d' hd').resolve_left hself)
  · intro id' q hq hqlive
    have hof : ∀ denom, coinsOf (((g.setProposal { p with
        totalDeposit := p.totalDeposit.add amount }).upsertDeposit p.proposalID depositor
          amount).depositsOf id') denom = coinsOf (g.depositsOf id') denom +
            if p.proposalID = id' then amount.amountOf denom else 0 :=
      coinsOf_upsertDeposit h.valid hamount p.proposalID depositor id'
    rw [hget] at hq
    split at hq
    · rename_i hself
      subst hself
      cases hq
      obtain ⟨htvalid, hteq⟩ := h.totals _ p hp.get hlive
      refine ⟨isValid_add htvalid hamount, ?_⟩
      intro denom
      rw [hof, if_pos rfl, ← hteq denom]
      exact amountOf_add htvalid hamount denom
    · rename_i hself
      obtain ⟨htvalid, hteq⟩ := h.totals id' q hq hqlive
      refine ⟨htvalid, ?_⟩
      intro denom
      rw [hof, if_neg (Ne.symm hself), add_zero, hteq denom]

/-- A proposal is settled and ends. -/
lemma close (h : DepositsHeld denom balance g w) {id : Nat} (hclose : Closing g g' id)
    (hw : balance w' = balance w - coinsOf (g.depositsOf id) denom) :
    DepositsHeld denom balance g' w' := by
  have hmem : ∀ d ∈ g'.deposits.rows, d ∈ g.deposits.rows ∧ d.proposalID ≠ id := by
    intro d hd
    rw [hclose.deposits] at hd
    obtain ⟨hd, hne⟩ := Table.mem_filter.mp hd
    exact ⟨hd, by simpa using hne⟩
  refine ⟨?_, fun d hd => h.valid d (hmem d hd).1, ?_, ?_⟩
  · have hsplit : g'.deposits.total (fun d => d.amount.amountOf denom) +
        coinsOf (g.depositsOf id) denom = g.deposits.total (fun d => d.amount.amountOf denom) := by
      rw [hclose.deposits, coinsOf_depositsOf]
      dsimp only [GovState.settled]
      rw [total_filter, ← total_add]
      refine total_congr ?_
      intro d _
      by_cases hd : d.proposalID = id <;> simp [hd]
    have hheld := h.held
    omega
  · intro d hd
    obtain ⟨hd, hne⟩ := hmem d hd
    rw [hclose.only _ hne]
    exact h.owned d hd
  · intro id' p hp hlive
    have hne : id' ≠ id := by
      rintro rfl
      rw [hclose.ended p hp] at hlive
      cases hlive
    have hof : g'.depositsOf id' = g.depositsOf id' := by
      rw [← depositsOf_settled g hne, GovState.depositsOf, hclose.deposits]
      rfl
    rw [hclose.only _ hne] at hp
    rw [hof]
    exact h.totals id' p hp hlive

end DepositsHeld

lemma inNextPeriod_totalDeposit (ctx : Ctx) (votingPeriod : Duration) (p : Proposal) :
    (GovState.inNextPeriod ctx votingPeriod p).totalDeposit = p.totalDeposit := by
  unfold GovState.inNextPeriod
  split
  · rfl
  · split <;> rfl

lemma inNextPeriod_isFinal (ctx : Ctx) (votingPeriod : Duration) (p : Proposal) :
    (GovState.inNextPeriod ctx votingPeriod p).isFinal = false := by
  unfold GovState.inNextPeriod
  split
  · rfl
  · split <;> rfl

/-- Every move keeps the account and the deposits together. -/
lemma GovMove.depositsHeld {k : ChainKeepers σ} {denom : Denom} {balance : σ → Int}
    (haccount : GovAccount k denom balance) {b b' : GovState × σ × Trace}
    (hmove : GovMove k (depositRules balance) b b') (hsound : GovSound b.1)
    (h : DepositsHeld denom balance b.1 b.2.1) : DepositsHeld denom balance b'.1 b'.2.1 := by
  have hnext : ∀ {g : GovState} {w : σ} {p : Proposal} (ctx : Ctx), DepositsHeld denom balance g w →
      g.getProposal p.proposalID = some p → p.isFinal = false →
      DepositsHeld denom balance (g.activateVotingPeriod ctx p) w := by
    intro g w p ctx hg hp hlive
    exact hg.setProposal hp rfl (onlyProposal_activate g ctx p) (activateVotingPeriod_get g ctx p)
      hlive (inNextPeriod_isFinal _ _ _) (inNextPeriod_totalDeposit _ _ _)
  have hrefunded : ∀ {ds : List Deposit} {w w' : σ}, Uses (refundUse k.toKeepers) ds w w' →
      balance w' = balance w - coinsOf ds denom :=
    fun huses => uses_balance (fun huse => haccount.refund huse) huses
  cases hmove with
  | other hother => exact h.world hother
  | submit ctx content proposer isCouncilMember => exact h.newProposal hsound _ _ _ _
  | deposit hp hamount hsend => exact h.deposit hp hamount (haccount.deposit hsend)
  | activate ctx hp => exact hnext ctx h hp.get (hp.isFinal (.inl rfl))
  | nextRound ctx hp => exact hnext ctx h hp.get (hp.isFinal (.inr (.inl rfl)))
  | count _ => exact h
  | remove _ huses => exact h.close (closing_removed _ _) (hrefunded huses)
  | veto _ huses =>
    exact h.close (closing_closedGov _ _ (.inr (.inr rfl)))
      (uses_balance (fun huse => haccount.burn huse) huses)
  | reject _ huses =>
    exact h.close (closing_closedGov _ _ (.inr (.inr rfl))) (hrefunded huses)
  | pass _ hstatus huses =>
    exact h.close (closing_closedGov _ _ (hstatus.imp_right .inl)) (hrefunded huses)
  | @passEarly g w t p status _ _ hstatus hnil =>
    have hdeposits : g.depositsOf p.proposalID = [] := hnil
    refine h.close (closing_early hstatus hdeposits) ?_
    rw [hdeposits]
    exact (sub_zero _).symm

end Shentu
