import Shentu.DepositsHeld

/-!
Every deposit is settled once. What a depositor has put in for a proposal is in the store
until the proposal ends, and is then given back, or burned after a veto. A certifier update
that its round passes before the end of the voting period is not settled, so the result
needs that such a proposal has no deposits.
-/

namespace Shentu

open Lib Table Ledger List

variable {σ : Type}

def GovEntry.transfer : GovEntry → Option (DepositKind × Deposit)
  | .moved kind d => some (kind, d)
  | _ => none

/-- The coins of depositors that a trace moves. -/
def transfers (t : Trace) : List (DepositKind × Deposit) := t.filterMap GovEntry.transfer

@[simp] lemma transfers_nil : transfers [] = [] := rfl

@[simp] lemma transfers_append (t t' : Trace) : transfers (t ++ t') = transfers t ++ transfers t' :=
  filterMap_append

variable (kind : DepositKind)

@[simp] lemma transfers_moved (d : Deposit) (t : Trace) :
    transfers (.moved kind d :: t) = (kind, d) :: transfers t := rfl

lemma transfers_cons {e : GovEntry} (h : e.transfer = none) (t : Trace) :
    transfers (e :: t) = transfers t :=
  filterMap_cons_none h

@[simp] lemma transfers_securityTally (id : Nat) (pass : Bool) (t : Trace) :
    transfers (.securityTally id pass :: t) = transfers t := rfl

@[simp] lemma transfers_stakeTally (id : Nat) (result : StakeTally) (t : Trace) :
    transfers (.stakeTally id result :: t) = transfers t := rfl

@[simp] lemma transfers_executed (id : Nat) (content : Content) (t : Trace) :
    transfers (.executed id content :: t) = transfers t := rfl

@[simp] lemma transfers_settlement (ds : List Deposit) :
    transfers (ds.map (.moved kind)) = ds.map (fun d => (kind, d)) := by
  induction ds with
  | nil => rfl
  | cons d ds ih => rw [map_cons, transfers_moved, ih, map_cons]

variable {p : Proposal} {balance : σ → Int}

lemma Counted.transfer_eq {g : GovState} {pass : Bool} {entry : GovEntry}
    (h : Counted g p pass entry) : entry.transfer = none := by
  cases h <;> rfl

variable (key : Nat ×ₗ Nat)

/-- What one transfer moves in a denomination for one depositor and proposal. -/
def transferred (denom : Denom) (m : DepositKind × Deposit) : Int :=
  if m.1 = kind ∧ m.2.key = key then m.2.amount.amountOf denom else 0

/-- What is moved in a denomination for one depositor and proposal. -/
def flow (denom : Denom) (ms : List (DepositKind × Deposit)) : Int :=
  (ms.map (transferred kind key denom)).sum

@[simp] lemma flow_append (denom : Denom) (ms ms' : List (DepositKind × Deposit)) :
    flow kind key denom (ms ++ ms') = flow kind key denom ms + flow kind key denom ms' := by
  simp [flow]

lemma flow_eq_zero {kind : DepositKind} {id : Nat} {ms : List (DepositKind × Deposit)}
    (h : ∀ d, (kind, d) ∈ ms → d.proposalID ≠ id) (depositor : AccAddress) (denom : Denom) :
    flow kind (toLex (id, depositor)) denom ms = 0 := by
  refine sum_eq_zero ?_
  intro x hx
  obtain ⟨⟨kind', d⟩, hm, rfl⟩ := mem_map.mp hx
  refine if_neg ?_
  rintro ⟨rfl, hkey⟩
  exact h d hm (congrArg Prod.fst (toLex_inj.mp hkey))

lemma flow_settlement (g : GovState) (id : Nat) (kind kind' : DepositKind) (key : Nat ×ₗ Nat)
    (denom : Denom) :
    flow kind' key denom ((g.depositsOf id).map (fun d => (kind, d))) =
      if kind = kind' then (g.deposits.filter (fun d => d.proposalID = id)).valueAt
        (fun d => d.amount.amountOf denom) key else 0 := by
  rw [flow, map_map]
  split
  · rename_i hkind
    rw [← total_at_key]
    refine congrArg List.sum (map_congr_left ?_)
    intro d _
    simp [transferred, hkind]
  · rename_i hkind
    refine sum_eq_zero (forall_mem_map.mpr ?_)
    intro d _
    exact if_neg (fun h => hkind h.1)

/-- A proposal that is still to come or has not ended. -/
def Pending (g : GovState) (id : Nat) : Prop :=
  g.nextProposalID ≤ id ∨ ∃ p, g.getProposal id = some p ∧ p.isFinal = false

/-- What the trace says about the deposits in the store and those that have left it. -/
structure FlowsSound (g : GovState) (t : Trace) : Prop where
  balanced : ∀ key denom, flow .deposited key denom (transfers t) =
    g.deposits.valueAt (fun d => d.amount.amountOf denom) key +
      flow .refunded key denom (transfers t) + flow .burned key denom (transfers t)
  pending : ∀ id, Pending g id → ∀ kind d, (kind, d) ∈ transfers t → d.proposalID = id →
    kind = .deposited
  oneWay : ∀ id, (∀ d, (.burned, d) ∈ transfers t → d.proposalID ≠ id) ∨
    (.stakeTally id .veto ∈ t ∧ ∀ d, (.refunded, d) ∈ transfers t → d.proposalID ≠ id)

namespace FlowsSound

variable {g g' : GovState} {t t' : Trace}

lemma empty (params : GovParams) : FlowsSound (GovState.empty params) [] where
  balanced _ _ := rfl
  pending _ _ _ _ hm _ := by cases hm
  oneWay _ := .inl (fun _ hm => by cases hm)

lemma frame (h : FlowsSound g t) (hdeposits : g'.deposits = g.deposits)
    (hpending : ∀ id, Pending g' id → Pending g id) (htransfers : transfers t' = transfers t)
    (hsub : ∀ e ∈ t, e ∈ t') : FlowsSound g' t' where
  balanced := by
    rw [hdeposits, htransfers]
    exact h.balanced
  pending := by
    rw [htransfers]
    exact fun id hid => h.pending id (hpending id hid)
  oneWay := by
    rw [htransfers]
    exact fun id => (h.oneWay id).imp_right (fun hveto => ⟨hsub _ hveto.1, hveto.2⟩)

/-- A deposit for a proposal that has not ended. -/
lemma deposit (h : FlowsSound g t) (hvalid : ∀ d ∈ g.deposits.rows, Coins.isValid d.amount)
    {p : Proposal} (hp : InPeriod g p .depositPeriod) {depositor : AccAddress} {amount : Coins}
    (hamount : Coins.isValid amount) :
    FlowsSound ((g.setProposal { p with
        totalDeposit := p.totalDeposit.add amount }).upsertDeposit p.proposalID depositor amount)
      (t ++ [.moved .deposited ⟨p.proposalID, depositor, amount⟩]) := by
  obtain ⟨d, hupsert, hid, hkey, -, hsum⟩ := upsertDeposit_cases (g.setProposal { p with
    totalDeposit := p.totalDeposit.add amount }) p.proposalID depositor amount hvalid hamount
  have hlive : p.isFinal = false := hp.isFinal (.inl rfl)
  rw [hupsert]
  refine ⟨?_, ?_, ?_⟩
  · intro key denom
    have hold := h.balanced key denom
    have hvalue := g.deposits.valueAt_set d (fun d => d.amount.amountOf denom) key
    rw [hkey] at hvalue
    have hkey' : (⟨p.proposalID, depositor, amount⟩ : Deposit).key =
      toLex (p.proposalID, depositor) := rfl
    simp only [transfers_append, transfers_moved, transfers_nil, flow_append]
    simp only [flow, transferred, map_cons, map_nil, sum_cons, sum_nil,
      hkey', true_and, reduceCtorEq, false_and, if_false, add_zero] at hold ⊢
    have hnew := hsum denom
    dsimp only [GovState.setProposal] at hnew ⊢
    rw [hvalue]
    by_cases heq : key = toLex (p.proposalID, depositor)
    · subst heq
      rw [if_pos rfl, if_pos rfl, hnew]
      omega
    · rw [if_neg heq, if_neg (Ne.symm heq)]
      omega
  · intro id hpending kind d' hm hd'
    rw [transfers_append, transfers_moved, transfers_nil, mem_append, mem_singleton] at hm
    rcases hm with hm | hm
    · refine h.pending id ?_ kind d' hm hd'
      rcases hpending with hnext | ⟨q, hq, hqlive⟩
      · exact .inl hnext
      · right
        by_cases hself : id = p.proposalID
        · exact ⟨p, hself ▸ hp.get, hlive⟩
        · have hget : (g.setProposal { p with
              totalDeposit := p.totalDeposit.add amount }).getProposal id = g.getProposal id :=
            get_set_of_ne _ hself
          exact ⟨q, hget.symm.trans hq, hqlive⟩
    · cases hm
      rfl
  · intro id
    simp only [transfers_append, transfers_moved, transfers_nil, mem_append, mem_singleton,
      Prod.mk.injEq, reduceCtorEq, false_and, or_false]
    exact h.oneWay id

/-- The settlement of a proposal that has not ended. -/
lemma close (h : FlowsSound g t) {id : Nat} (hclose : Closing g g' id) (hid : Pending g id)
    (hstored : id < g.nextProposalID) {kind : DepositKind}
    (hkind : kind = .refunded ∨ kind = .burned ∧ .stakeTally id .veto ∈ t')
    (htransfers : transfers t' = transfers t ++ (g.depositsOf id).map (fun d => (kind, d)))
    (hsub : ∀ e ∈ t, e ∈ t') : FlowsSound g' t' := by
  have hne : kind ≠ .deposited := by
    rcases hkind with rfl | ⟨rfl, -⟩ <;> decide
  have hmem : ∀ {kind' : DepositKind} {d : Deposit}, (kind', d) ∈ transfers t' →
      (kind', d) ∈ transfers t ∨ kind' = kind ∧ d.proposalID = id := by
    intro kind' d hm
    rw [htransfers, mem_append] at hm
    refine hm.imp_right ?_
    intro hm
    obtain ⟨d', hd', heq⟩ := mem_map.mp hm
    cases heq
    exact ⟨rfl, of_decide_eq_true (List.mem_filter.mp hd').2⟩
  refine ⟨?_, ?_, ?_⟩
  · intro key denom
    have hold := h.balanced key denom
    have hleft : g.deposits.valueAt (fun d => d.amount.amountOf denom) key =
        g'.deposits.valueAt (fun d => d.amount.amountOf denom) key +
          (g.deposits.filter (fun d => d.proposalID = id)).valueAt
            (fun d => d.amount.amountOf denom) key := by
      rw [hclose.deposits]
      dsimp only [GovState.settled]
      rw [valueAt_filter, valueAt_filter]
      cases hget : g.deposits.get key with
      | none => simp [valueAt_of_get_none hget]
      | some d =>
        rw [valueAt_of_get hget, valueAt_of_get hget, valueAt_of_get hget]
        by_cases hd : d.proposalID = id <;> simp [hd]
    rw [htransfers]
    simp only [flow_append, flow_settlement]
    rw [if_neg hne]
    rcases hkind with rfl | ⟨rfl, -⟩
    · simp only [if_true, reduceCtorEq, if_false]
      omega
    · simp only [if_true, reduceCtorEq, if_false]
      omega
  · intro id' hpending kind' d hm hd
    have hother : id' ≠ id := by
      rintro rfl
      rcases hpending with hnext | ⟨p, hp, hlive⟩
      · rw [hclose.next] at hnext
        omega
      · rw [hclose.ended p hp] at hlive
        cases hlive
    rcases hmem hm with hm | ⟨-, hself⟩
    · refine h.pending id' ?_ kind' d hm hd
      rcases hpending with hnext | ⟨p, hp, hlive⟩
      · exact .inl (hclose.next ▸ hnext)
      · exact .inr ⟨p, (hclose.only id' hother).symm.trans hp, hlive⟩
    · exact absurd (hd.symm.trans hself) hother
  · intro id'
    by_cases hself : id' = id
    · subst hself
      rcases hkind with rfl | ⟨rfl, hveto⟩
      · left
        intro d hm hd
        rcases hmem hm with hm | ⟨hkind', -⟩
        · cases h.pending id' hid _ d hm hd
        · cases hkind'
      · right
        refine ⟨hveto, ?_⟩
        intro d hm hd
        rcases hmem hm with hm | ⟨hkind', -⟩
        · cases h.pending id' hid _ d hm hd
        · cases hkind'
    · rcases h.oneWay id' with hburned | ⟨hveto, hrefunded⟩
      · left
        intro d hm
        rcases hmem hm with hm | ⟨-, hd⟩
        · exact hburned d hm
        · exact hd ▸ Ne.symm hself
      · right
        refine ⟨hsub _ hveto, ?_⟩
        intro d hm
        rcases hmem hm with hm | ⟨-, hd⟩
        · exact hrefunded d hm
        · exact hd ▸ Ne.symm hself

end FlowsSound

variable {k : ChainKeepers σ}

lemma GovMove.pending {rules : GovRules σ} {b b' : GovState × σ × Trace}
    (hmove : GovMove k rules b b') (id : Nat) (h : Pending b'.1 id) : Pending b.1 id := by
  obtain ⟨hnext, hlives⟩ := hmove.livesOn
  rcases h with h | ⟨p, hp, hlive⟩
  · exact .inl (hnext.trans h)
  · refine or_iff_not_imp_left.mpr fun hid => ?_
    have hlived := hlives id (not_le.mp hid)
    rw [hp] at hlived
    obtain ⟨q, hq, hqlive, -⟩ := hlived.earlier hlive
    exact ⟨q, hq, hqlive⟩

/-- Every move keeps the trace and the deposits together. -/
lemma GovMove.flowsSound {b b' : GovState × σ × Trace}
    (hmove : GovMove k (depositRules balance) b b') (hsound : GovSound b.1)
    (hvalid : ∀ d ∈ b.1.deposits.rows, Coins.isValid d.amount) (h : FlowsSound b.1 b.2.2) :
    FlowsSound b'.1 b'.2.2 := by
  have hclose : ∀ {p : Proposal} {kind : DepositKind}, b.1.getProposal p.proposalID = some p →
      p.isFinal = false → Closing b.1 b'.1 p.proposalID →
      kind = .refunded ∨ kind = .burned ∧ .stakeTally p.proposalID .veto ∈ b'.2.2 →
      transfers b'.2.2 = transfers b.2.2 ++ (b.1.depositsOf p.proposalID).map (fun d => (kind, d)) →
      (∀ e ∈ b.2.2, e ∈ b'.2.2) → FlowsSound b'.1 b'.2.2 := by
    intro p kind hp hlive hclosing hkind htransfers hsub
    exact h.close hclosing (.inr ⟨p, hp, hlive⟩) ((hsound _).fresh p hp) hkind htransfers hsub
  have hpending := hmove.pending
  cases hmove with
  | other _ => exact h
  | submit => exact h.frame rfl hpending rfl (fun _ he => he)
  | deposit hp hamount _ => exact h.deposit hvalid hp hamount
  | activate => exact h.frame rfl hpending rfl (fun _ he => he)
  | nextRound | count => exact h.frame rfl hpending (by simp) (fun _ he => mem_append_left _ he)
  | remove hp _ =>
    exact hclose hp.get (hp.isFinal (.inl rfl)) (closing_removed _ _) (.inl rfl) (by simp)
      (fun _ he => mem_append_left _ he)
  | veto hp _ =>
    exact hclose hp.get (hp.isFinal (.inr (.inr rfl)))
      (closing_closedGov _ _ (.inr (.inr rfl))) (.inr ⟨rfl, by simp⟩) (by simp)
      (fun _ he => mem_append_left _ (mem_append_left _ he))
  | reject hcounted _ =>
    exact hclose hcounted.inPeriod.1 hcounted.isFinal
      (closing_closedGov _ _ (.inr (.inr rfl))) (.inl rfl)
      (by simp [transfers_cons hcounted.transfer_eq])
      (fun _ he => mem_append_left _ (mem_append_left _ he))
  | pass hcounted hstatus _ =>
    exact hclose hcounted.inPeriod.1 hcounted.isFinal
      (closing_closedGov _ _ (hstatus.imp_right .inl)) (.inl rfl)
      (by simp [transfers_cons hcounted.transfer_eq])
      (fun _ he => mem_append_left _ (mem_append_left _ (mem_append_left _ he)))
  | @passEarly g w t p status hp _ hstatus hnil =>
    have hdeposits : g.depositsOf p.proposalID = [] := hnil
    exact hclose hp.get (hp.isFinal (.inr (.inl rfl))) (closing_early hstatus hdeposits)
      (.inl rfl) (by simp [hdeposits])
      (fun _ he => mem_append_left _ (mem_append_left _ he))

/-- Nothing but the gov module takes coins out of its account, and a certifier update that its
round passes before the end of the voting period has no deposits. -/
def SettlementKept (balance : σ → Int) (c : Chain σ) : Event σ → Prop
  | .action (.outside world) => balance c.shield.world ≤ balance world
  | .govEndBlocker t => ∀ p ∈ c.gov.proposals.rows, p.status = .certifierVotingPeriod →
      p.content.isCertifierUpdate = true → c.ctx.blockTime < p.votingEndTime →
      t.security p.proposalID = true → c.gov.depositsOf p.proposalID = []
  | _ => True

instance (balance : σ → Int) (c : Chain σ) (e : Event σ) :
    Decidable (SettlementKept balance c e) := by
  unfold SettlementKept
  induction e using Event.casesOn with
  | action a => induction a using Action.casesOn <;> infer_instance
  | _ => infer_instance

lemma settlementKept_allowed {denom : Denom}
    (haccount : GovAccount k denom balance) {c : Chain σ} {e : Event σ} (hsound : ChainSound c)
    (h : SettlementKept balance c e) : GovAllowed k (depositRules balance) c e where
  other he c' hexec := by
    by_cases houtside : ∃ world, e = .action (.outside world)
    · obtain ⟨world, rfl⟩ := houtside
      cases hexec
      exact h
    · exact haccount.writes (exec_writes hsound he (fun world hw => houtside ⟨world, hw⟩) hexec)
  early t he := by
    subst he
    intro p hp hcert htime hpass g hsub
    refine filter_eq_nil_iff.mpr ?_
    intro d hd
    have hnil := h p (mem_of_get hp.get) hp.status hcert htime hpass
    exact filter_eq_nil_iff.mp hnil d (hsub d hd)

/-- A depositor has everything back, or everything has been burned. -/
structure SettledOnce (t : Trace) (id : Nat) (back other : DepositKind) : Prop where
  full : ∀ depositor denom, flow back (toLex (id, depositor)) denom (transfers t) =
    flow .deposited (toLex (id, depositor)) denom (transfers t)
  none : ∀ depositor denom, flow other (toLex (id, depositor)) denom (transfers t) = 0

/-- The account covers the stored deposits, the total of a proposal that has not ended is the sum
of its deposits, and a proposal that has ended or is deleted has none left. -/
structure DepositsSettled (denom : Denom) (balance : σ → Int) (c : Chain σ) (t : Trace) : Prop where
  held : c.gov.deposits.total (fun d => d.amount.amountOf denom) ≤ balance c.shield.world
  live : ∀ id p, c.gov.getProposal id = some p → p.isFinal = false →
    ∀ denom, p.totalDeposit.amountOf denom = coinsOf (c.gov.depositsOf id) denom
  ended : ∀ id, (∀ p, c.gov.getProposal id = some p → p.isFinal = true) →
    c.gov.depositsOf id = [] ∧ (SettledOnce t id .refunded .burned ∨
      .stakeTally id .veto ∈ t ∧ SettledOnce t id .burned .refunded)

lemma depositsSettled {denom : Denom} {c : Chain σ} {t : Trace}
    (hheld : DepositsHeld denom balance c.gov c.shield.world) (hflows : FlowsSound c.gov t) :
    DepositsSettled denom balance c t where
  held := hheld.held
  live id p hp hlive := (hheld.totals id p hp hlive).2
  ended := by
    intro id hended
    have hnone : ∀ d ∈ c.gov.deposits.rows, d.proposalID ≠ id := by
      rintro d hd rfl
      obtain ⟨p, hp, hlive⟩ := hheld.owned d hd
      rw [hended p hp] at hlive
      cases hlive
    have hvalue : ∀ depositor denom, c.gov.deposits.valueAt (fun d => d.amount.amountOf denom)
        (toLex (id, depositor)) = 0 := by
      intro depositor denom
      refine valueAt_of_get_none (get_eq_none_iff.mpr ?_) _
      intro d hd hkey
      exact hnone d hd (congrArg Prod.fst (toLex_inj.mp hkey))
    refine ⟨filter_eq_nil_iff.mpr (fun d hd => by simpa using hnone d hd), ?_⟩
    refine (hflows.oneWay id).imp ?_ (fun hveto => ⟨hveto.1, ?_⟩)
    · intro hburned
      have hzero := flow_eq_zero hburned
      refine ⟨?_, hzero⟩
      intro depositor denom
      rw [hflows.balanced, hvalue, hzero, zero_add, add_zero]
    · have hzero := flow_eq_zero hveto.2
      refine ⟨?_, hzero⟩
      intro depositor denom
      rw [hflows.balanced, hvalue, hzero, zero_add, zero_add]

/-- In every run whose events keep the settlement all deposits are settled once. -/
theorem depositsSettled_of_run {k : ChainKeepers σ} {denom : Denom} {balance : σ → Int}
    (haccount : GovAccount k denom balance) {params : ShieldParams} (hparams : params.validate)
    {govParams : GovParams} {world : σ} (hworld : 0 ≤ balance world) {ctx : Ctx}
    {es : List (Event σ)} {c : Chain σ}
    (hmeet : StepsMeet (SettlementKept balance) (exec k)
      (Chain.empty params govParams world ctx) es)
    (hrun : run k (Chain.empty params govParams world ctx) es = .ok c) :
    ∃ t, runTraced k (Chain.empty params govParams world ctx, []) es = .ok (c, t) ∧
      DepositsSettled denom balance c t := by
  obtain ⟨t, htraced⟩ := exists_trace (.empty params govParams world ctx, []) hrun
  refine ⟨t, htraced, ?_⟩
  have hmeet' : StepsMeet (fun ct e => SettlementKept balance ct.1 e) (execTraced k)
      (.empty params govParams world ctx, []) es :=
    StepsMeet.of_map (fun ct e => execTraced_erase k ct e) hmeet
  obtain ⟨-, -, hheld, hflows⟩ := runTraced_invariant (depositRules balance)
    (.empty params govParams world ctx, []) (C := ChainSound) (d := SettlementKept balance)
    (P := fun b => DepositsHeld denom balance b.1 b.2.1 ∧ FlowsSound b.1 b.2.2)
    haccount.worldKept (fun _ _ _ hc hexec => hc.exec hexec)
    (fun _ _ hs hP hmove => ⟨hmove.depositsHeld haccount hs hP.1,
      hmove.flowsSound hs hP.1.valid hP.2⟩)
    (fun _ _ hc hd => settlementKept_allowed haccount hc hd) (.empty govParams)
    (.empty hparams govParams world ctx)
    ⟨DepositsHeld.empty govParams hworld, FlowsSound.empty govParams⟩ hmeet' htraced
  exact depositsSettled hheld hflows

lemma ledger_govAccount : GovAccount ledgerChainKeepers microCTKDenom (fun w => w.pooled .gov) where
  deposit h := (pooled_of_sendFromAccount h .gov).trans (by rw [if_pos rfl]; rfl)
  refund h := (pooled_of_sendFromModule h .gov).trans (by rw [if_pos rfl]; rfl)
  burn h := (pooled_of_burn h .gov).trans (by rw [if_pos rfl]; rfl)
  write := by
    intro w w' h
    cases h with
    | unbonding h => cases h <;> exact le_refl _
    | delegation h =>
      cases h with
      | track h =>
        cases h
        exact le_refl _
      | collect hm h =>
        refine (pooled_of_sendBetweenModules h .gov).ge.trans' ?_
        rcases hm with rfl | rfl <;> simp
      | _ => exact le_refl _
    | receive h => exact (pooled_of_sendFromAccount h .gov).ge.trans' (by simp)
    | pay h => exact (pooled_of_sendFromModule h .gov).ge.trans' (by simp)
  execute := by
    intro w w' content h
    cases h
    exact le_refl _

/-- A proposal with a deposit of 5 that all counts pass, and a later block. -/
def depositEvents (content : Content) : List (Event Ledger) :=
  (txBlock 1 [.submitProposal content (uctk 5) 5] .pass).events ++ (txBlock 20 [] .pass).events

/-- The deposit for a text proposal is given back when it passes. -/
theorem depositsSettled_of_text :
    ∃ c t, runTraced ledgerChainKeepers (ledgerStart, []) (depositEvents (.other "text")) =
        .ok (c, t) ∧ .moved .refunded ⟨1, 5, uctk 5⟩ ∈ t ∧
      DepositsSettled microCTKDenom (fun w : Ledger => w.pooled .gov) c t := by
  obtain ⟨⟨c, t⟩, hc, hrefunded⟩ : ∃ ct, runTraced ledgerChainKeepers (ledgerStart, [])
        (depositEvents (.other "text")) = .ok ct ∧ .moved .refunded ⟨1, 5, uctk 5⟩ ∈ ct.2 := by
    decide +kernel
  have hmeet : StepsMeet (SettlementKept (fun w : Ledger => w.pooled .gov))
      (exec ledgerChainKeepers)
      ledgerStart (depositEvents (.other "text")) := by
    decide +kernel
  have hplain : run ledgerChainKeepers ledgerStart (depositEvents (.other "text")) = .ok c := by
    rw [← runTraced_erase ledgerChainKeepers (ledgerStart, []), hc]
    rfl
  obtain ⟨t', ht', hsettled⟩ := depositsSettled_of_run ledger_govAccount shortPeriodParams_validate
    (by decide) hmeet hplain
  cases hc.symm.trans ht'
  exact ⟨c, t, hc, hrefunded, hsettled⟩

/-- A certifier update that its round passes at once keeps its deposit in the store, and nothing
is given back. -/
theorem certifierUpdate_not_settled : ∃ c t, runTraced ledgerChainKeepers (ledgerStart, [])
        (depositEvents (.certifierUpdate "alias")) = .ok (c, t) ∧
      (∃ p, c.gov.getProposal 1 = some p ∧ p.status = .passed) ∧
      c.gov.depositsOf 1 = [⟨1, 5, uctk 5⟩] ∧
      flow .refunded (toLex (1, 5)) microCTKDenom (transfers t) = 0 ∧
      ¬ DepositsSettled microCTKDenom (fun w : Ledger => w.pooled .gov) c t := by
  obtain ⟨⟨c, t⟩, hc, ⟨p, hp, hstatus⟩, hdeposits, hflow⟩ : ∃ ct, runTraced ledgerChainKeepers
        (ledgerStart, []) (depositEvents (.certifierUpdate "alias")) = .ok ct ∧
      (∃ p, ct.1.gov.getProposal 1 = some p ∧ p.status = .passed) ∧
      ct.1.gov.depositsOf 1 = [⟨1, 5, uctk 5⟩] ∧
      flow .refunded (toLex (1, 5)) microCTKDenom (transfers ct.2) = 0 := by
    decide +kernel
  refine ⟨c, t, hc, ⟨p, hp, hstatus⟩, hdeposits, hflow, ?_⟩
  intro hsettled
  have hfinal : ∀ q, c.gov.getProposal 1 = some q → q.isFinal = true := by
    intro q hq
    cases hp.symm.trans hq
    simp [Proposal.isFinal, hstatus]
  rw [(hsettled.ended 1 hfinal).1] at hdeposits
  cases hdeposits

end Shentu
