import Shentu.CVM.MessageCreations

/-!
When two creations of a history compute the same address, for injective derivations. Messages clash
if the same sender deploys twice with one sequence number, or if senders with equal sequence numbers
make the same contract create its contract with the same number.
-/

namespace Shentu.CVM

open Lib List Nat

/-- No two of the creations by deployment and by `CREATE` have one address, and two `CREATE2`
creations have one address only for one creator, salt and init code. -/
structure AddressesFresh (all : List Creation) : Prop where
  plain : (all.filterMap Creation.plainAddress).Nodup
  salted : ∀ {creator salt code initCode address creator' salt' code' initCode' address'},
    .create2 creator salt code initCode address ∈ all →
    .create2 creator' salt' code' initCode' address' ∈ all → address = address' →
      creator = creator' ∧ salt = salt' ∧ initCode = initCode'

/-- No creations of different messages clash, and one contract uses one salt for one init code as
long as its own code stays. -/
structure NothingClashes (host : Host) (history : List Message) : Prop where
  plain : history.Pairwise fun m m' =>
    ∀ e ∈ m.creations host, ∀ e' ∈ m'.creations host, ¬ e.Clash e'
  salted : ∀ {creator salt code initCode address initCode' address'},
    .create2 creator salt code initCode address ∈ history.flatMap (Message.creations host) →
    .create2 creator salt code initCode' address' ∈ history.flatMap (Message.creations host) →
      initCode = initCode'

section History

variable {host : Host}

lemma plainAddress_of_derived {e : Creation} {nonce : List Byte} (h : e.Derived host nonce) :
    e.plainAddress = e.source.map fun s => host.newContractAddress s.1 s.2 := by
  cases e with
  | deploy caller n address =>
    rw [h.2]
    rfl
  | create creator n sequence address =>
    rw [h.2.2]
    rfl
  | create2 => rfl

lemma clash_iff {e e' : Creation} {nonce nonce' : List Byte} (hlength : nonce.length = 8)
    (hlength' : nonce'.length = 8) (h : e.Derived host nonce) (h' : e'.Derived host nonce') :
    e.Clash e' ↔ ∃ s, e.source = some s ∧ e'.source = some s := by
  cases e with
  | create2 => exact ⟨False.elim, fun ⟨s, hs, _⟩ => nomatch hs⟩
  | deploy c n a =>
    cases e' with
    | create2 => exact ⟨False.elim, fun ⟨s, _, hs⟩ => nomatch hs⟩
    | deploy c' n' a' =>
      constructor
      · rintro ⟨rfl, rfl⟩
        exact ⟨_, rfl, rfl⟩
      · rintro ⟨s, hs, hs'⟩
        cases hs
        cases hs'
        exact ⟨rfl, rfl⟩
    | create c' n' k' a' =>
      refine ⟨False.elim, ?_⟩
      rintro ⟨s, hs, hs'⟩
      have hnonce : creationNonce n' k' = n :=
        congrArg Prod.snd (Option.some.inj (hs'.trans hs.symm))
      have hlong := length_creationNonce (h'.1 ▸ hlength') k'
      rw [hnonce, h.1, hlength] at hlong
      cases hlong
  | create c n k a =>
    cases e' with
    | create2 => exact ⟨False.elim, fun ⟨s, _, hs⟩ => nomatch hs⟩
    | deploy c' n' a' =>
      refine ⟨False.elim, ?_⟩
      rintro ⟨s, hs, hs'⟩
      have hnonce : creationNonce n k = n' :=
        congrArg Prod.snd (Option.some.inj (hs.trans hs'.symm))
      have hlong := length_creationNonce (h.1 ▸ hlength) k
      rw [hnonce, h'.1, hlength'] at hlong
      cases hlong
    | create c' n' k' a' =>
      constructor
      · rintro ⟨rfl, rfl, rfl⟩
        exact ⟨_, rfl, rfl⟩
      · rintro ⟨s, hs, hs'⟩
        have hpair := Option.some.inj (hs.trans hs'.symm)
        obtain ⟨hn, hk⟩ := creationNonce_inj (h.1 ▸ hlength) (h'.1 ▸ hlength') h.2.1 h'.2.1
          (congrArg Prod.snd hpair)
        exact ⟨congrArg Prod.fst hpair, hn, hk⟩

/-- In a history of messages, the addresses of new contracts are fresh if and only if nothing
clashes. -/
theorem addressesFresh_iff (host : Host) (hnatives : NativesSpend host.toEnv)
    (hinj : Function.Injective fun s : Address × List Byte => host.newContractAddress s.1 s.2)
    (hinj2 : Function.Injective fun s : Address × Word × Code =>
      host.newContractAddress2 s.1 s.2.1 s.2.2)
    (history : List Message) (hended : ∀ m ∈ history, m.Ended host) :
    AddressesFresh (history.flatMap (Message.creations host)) ↔ NothingClashes host history := by
  have hspec := fun m hm => message_spec hnatives (hended m hm)
  have hderived : ∀ e ∈ history.flatMap (Message.creations host),
      ∃ nonce, e.Derived host nonce := by
    intro e he
    obtain ⟨m, hm, he⟩ := mem_flatMap.mp he
    obtain ⟨nonce, -, hd⟩ := (hspec m hm).1
    exact ⟨nonce, hd e he⟩
  have hplain : ((history.flatMap (Message.creations host)).filterMap
      Creation.plainAddress).Nodup ↔ history.Pairwise fun m m' =>
        ∀ e ∈ m.creations host, ∀ e' ∈ m'.creations host, ¬ e.Clash e' := by
    have haddresses : (history.flatMap (Message.creations host)).filterMap Creation.plainAddress =
        (history.flatMap fun m => (m.creations host).filterMap Creation.source).map
          (fun s => host.newContractAddress s.1 s.2) := by
      rw [← filterMap_flatMap, map_filterMap]
      refine filterMap_congr ?_
      intro e he
      obtain ⟨nonce, hd⟩ := hderived e he
      exact plainAddress_of_derived hd
    rw [haddresses, nodup_map_iff hinj, nodup_flatMap]
    rw [and_iff_right fun m hm => (hspec m hm).2]
    refine List.Pairwise.iff_of_mem ?_
    intro m m' hm hm'
    obtain ⟨nonce, hlength, hd⟩ := (hspec m hm).1
    obtain ⟨nonce', hlength', hd'⟩ := (hspec m' hm').1
    constructor
    · intro hdisjoint e he e' he' hclash
      obtain ⟨s, hs, hs'⟩ := (clash_iff hlength hlength' (hd e he) (hd' e' he')).mp hclash
      exact hdisjoint (mem_filterMap.mpr ⟨e, he, hs⟩) (mem_filterMap.mpr ⟨e', he', hs'⟩)
    · intro hnone s hs hs'
      obtain ⟨e, he, hes⟩ := mem_filterMap.mp hs
      obtain ⟨e', he', hes'⟩ := mem_filterMap.mp hs'
      exact hnone e he e' he' ((clash_iff hlength hlength' (hd e he) (hd' e' he')).mpr
        ⟨s, hes, hes'⟩)
  have hsalted : ∀ {creator salt code initCode address},
      .create2 creator salt code initCode address ∈ history.flatMap (Message.creations host) →
        address = host.newContractAddress2 creator salt code := by
    intro creator salt code initCode address he
    obtain ⟨nonce, hd⟩ := hderived _ he
    exact hd
  constructor
  · rintro ⟨hfresh, hfresh2⟩
    refine ⟨hplain.mp hfresh, ?_⟩
    intro creator salt code initCode address initCode' address' he he'
    exact (hfresh2 he he' ((hsalted he).trans (hsalted he').symm)).2.2
  · rintro ⟨hclash, hclash2⟩
    refine ⟨hplain.mpr hclash, ?_⟩
    intro creator salt code initCode address creator' salt' code' initCode' address' he he' heq
    have hsame := @hinj2 (creator, salt, code) (creator', salt', code')
      ((hsalted he).symm.trans (heq.trans (hsalted he')))
    cases hsame
    exact ⟨rfl, rfl, hclash2 he he'⟩

end History

section Factory

/-- The number of a byte string behind a byte that is not zero. -/
def packBytes (bs : List Byte) : Nat := ofBigEndian (1 :: bs)

lemma packBytes_injective : Function.Injective packBytes := by
  have hdigits : ∀ bs : List Byte, Nat.digits 256 (packBytes bs) =
      (bs.map Fin.val).reverse ++ [1] := by
    intro bs
    induction bs using List.reverseRecOn with
    | nil => rfl
    | append_singleton bs b ih =>
      have hpack : packBytes (bs ++ [b]) = b.val + 256 * packBytes bs := by
        unfold packBytes ofBigEndian
        rw [← cons_append, foldl_append]
        exact Nat.add_comm _ _
      have hpos : packBytes bs ≠ 0 := by
        intro hzero
        rw [hzero] at ih
        simp at ih
      rw [hpack, digits_add 256 (by decide) b.val _ b.isLt (.inr hpos), ih]
      simp
  intro bs bs' h
  have hlists := congrArg (Nat.digits 256) h
  rw [hdigits, hdigits] at hlists
  have hmaps := reverse_injective (append_cancel_right hlists)
  exact (map_injective_iff.mpr Fin.val_injective) hmaps

/-- A host that derives addresses injectively. -/
def injectiveHost : Host :=
  { plainHost with
    newContractAddress := fun a nonce => Nat.pair a (packBytes nonce)
    newContractAddress2 := fun a salt code => Nat.pair (Nat.pair a salt.toNat) (packBytes code) }

lemma injectiveHost_newContractAddress : Function.Injective fun s : Address × List Byte =>
    injectiveHost.newContractAddress s.1 s.2 := by
  rintro ⟨a, nonce⟩ ⟨a', nonce'⟩ h
  obtain ⟨ha, hnonce⟩ := pair_eq_pair.mp h
  exact Prod.ext ha (packBytes_injective hnonce)

lemma injectiveHost_newContractAddress2 : Function.Injective fun s : Address × Word × Code =>
    injectiveHost.newContractAddress2 s.1 s.2.1 s.2.2 := by
  rintro ⟨a, salt, code⟩ ⟨a', salt', code'⟩ h
  obtain ⟨hpair, hcode⟩ := pair_eq_pair.mp h
  obtain ⟨ha, hsalt⟩ := pair_eq_pair.mp hpair
  exact Prod.ext ha (Prod.ext (BitVec.eq_of_toNat_eq hsalt) (packBytes_injective hcode))

/-- The code of a contract that creates a contract without code. -/
def factoryCode : Code := [0x60, 0x00, 0x60, 0x00, 0x60, 0x00, 0xF0, 0x00]

/-- A factory at address 2 and two senders, 1 and 3, with equal sequence numbers. -/
def factoryState : State :=
  { contractState factoryCode 0 with
    accounts := (contractState factoryCode 0).accounts.set
      ⟨3, .single microCTKDenom 1000, 0, none⟩ }

/-- A sender calls the factory. -/
def callFactory (s : State) (caller : Address) : Message :=
  ⟨s, ⟨caller, some 2, 0, [], [], false, false, false⟩, ⟨5000000, 0, false⟩, 1, 10⟩

instance (host : Host) (m : Message) : Decidable (m.Ended host) :=
  decidable_of_iff (m.msg.view = false ∧ ∀ pg ∈ m.prepared host,
      (execution host m.fuel pg.1 m.msg pg.2).isSome = true) (by
    constructor
    · rintro ⟨hview, hends⟩
      exact ⟨hview, fun p gas h => Option.isSome_iff_exists.mp (hends (p, gas) h)⟩
    · rintro ⟨hview, hends⟩
      exact ⟨hview, fun pg h => Option.isSome_iff_exists.mpr (hends pg.1 pg.2 h)⟩)

/-- Two senders with the same sequence number call a factory, one after the other. -/
theorem addressesFresh_not_two_senders :
    ∃ s', SomeAnd (keeperCall injectiveHost ⟨5000000, 0, false⟩ 1 10 factoryState
        (callFactory factoryState 1).msg) (fun outcome =>
          OkAnd outcome.result fun result => result.2 = s') ∧
      (∀ m ∈ [callFactory factoryState 1, callFactory s' 3], m.Ended injectiveHost) ∧
      ¬ AddressesFresh ([callFactory factoryState 1, callFactory s' 3].flatMap
        (Message.creations injectiveHost)) := by
  obtain ⟨outcome, houtcome, result, hok, hended, hbad⟩ : ∃ outcome, keeperCall injectiveHost
        ⟨5000000, 0, false⟩ 1 10 factoryState (callFactory factoryState 1).msg = some outcome ∧
      ∃ result, outcome.result = .ok result ∧
      (∀ m ∈ [callFactory factoryState 1, callFactory result.2 3], m.Ended injectiveHost) ∧
      ¬ (([callFactory factoryState 1, callFactory result.2 3].flatMap (Message.creations
        injectiveHost)).filterMap Creation.plainAddress).Nodup := by
    decide +kernel
  refine ⟨result.2, ?_, hended, fun hfresh => hbad hfresh.plain⟩
  unfold SomeAnd OkAnd
  rw [houtcome]
  dsimp only
  rw [hok]

/-- One call of the factory clashes with nothing. -/
theorem addressesFresh_iff_one_call :
    (callFactory factoryState 1).creations injectiveHost ≠ [] ∧
      (AddressesFresh ([callFactory factoryState 1].flatMap (Message.creations injectiveHost)) ↔
        NothingClashes injectiveHost [callFactory factoryState 1]) := by
  refine ⟨by decide +kernel, addressesFresh_iff injectiveHost (fun _ _ _ _ h => by cases h)
    injectiveHost_newContractAddress injectiveHost_newContractAddress2 _ ?_⟩
  decide +kernel

end Factory

end Shentu.CVM
