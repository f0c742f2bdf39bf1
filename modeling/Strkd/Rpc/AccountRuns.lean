import Strkd.Rpc.Session

/-!
# The registry over a session's life

Accounts are created, rolled back, resealed into vaults and read back from them.  In every run the
accounts of each domain are numbered from 0 without gaps, and each is visible in exactly one scope.
-/

namespace Strkd.Wallet

/-! ## Addresses and paths -/

theorem addressHex_injective : Function.Injective addressHex := by
  intro f g h
  have hparse : ∀ x : Felt, ((stripPrefix "0x" (addressHex x)).bind (parseRadix 16 feltPrime)) =
      some x.val := fun x => by
    rw [addressHex, stripPrefix_append, Option.bind_some, parseRadix_hexPadded 64 x.isLt]
  have hval : f.val = g.val := Option.some.inj ((hparse f).symm.trans (h ▸ hparse g))
  exact Fin.ext hval

/-- Within their branches' ranges, different accounts have different derivation paths. -/
theorem pathIndices_injective {d d' : Domain} {i i' : U32} (h : d.checkIndex i = .ok ())
    (h' : d'.checkIndex i' = .ok ()) (heq : d.pathIndices i = d'.pathIndices i') :
    (d, i) = (d', i') := by
  unfold Domain.checkIndex at h h'
  dsimp only at h h'
  split_ifs at h with hlt
  split_ifs at h' with hlt'
  cases d <;> cases d' <;> simp only [Domain.pathIndices, Prod.mk.injEq, true_and, and_true] at heq ⊢
  · exact heq
  · -- a user account would sit on the agents' account index
    rw [heq.1] at hlt
    exact absurd hlt (BitVec.lt_irrefl _)
  · rw [← heq.1] at hlt'
    exact absurd hlt' (BitVec.lt_irrefl _)
  · exact heq

theorem checkIndex_lt {d : Domain} {i : U32} (h : d.checkIndex i = .ok ()) :
    i.toNat + 1 < 2 ^ 32 := by
  unfold Domain.checkIndex at h
  dsimp only at h
  split_ifs at h with hlt
  cases d
  · have : i.toNat < userIndexLimit.toNat := hlt
    have hlimit : userIndexLimit.toNat = 0x41474E54 := rfl
    omega
  · have : i.toNat < agentIndexLimit.toNat := hlt
    have hlimit : agentIndexLimit.toNat = 0x80000000 := rfl
    omega

section

variable {K : Crates}

theorem checkIndex_of_accountAddress {mnemonic : String} {d : Domain} {i : U32} {chain : ChainId}
    {contract : AccountContract} {addr : Felt}
    (h : accountAddress K mnemonic d i chain contract = .ok addr) : d.checkIndex i = .ok () := by
  simp only [accountAddress, deploymentData, publicKey, privateKey, except_bind_eq_ok] at h
  obtain ⟨_, ⟨_, ⟨_, ⟨u, hu, -⟩, -⟩, -⟩, -⟩ := h
  exact hu

/-- Distinct derivation paths of a seed give distinct addresses, whatever the chains. -/
def PathsApart (K : Crates) (mnemonic : String) : Prop :=
  ∀ d i chain addr d' i' chain' addr',
    accountAddress K mnemonic d i chain .openZeppelin = .ok addr →
    accountAddress K mnemonic d' i' chain' .openZeppelin = .ok addr' →
    d.pathIndices i ≠ d'.pathIndices i' → addr ≠ addr'

end

/-! ## Numbered registries -/

namespace Registry

/-- The accounts of a domain, in order. -/
def ofDomain (r : Registry) (d : Domain) : List AccountRef := r.accounts.filter fun a => a.domain = d

/-- Each domain's accounts are numbered from 0 in order, each account's address is derived from the
seed, and the agent accounts are the ones with an owner. -/
structure Numbered (K : Crates) (mnemonic : String) (r : Registry) : Prop where
  indices : ∀ d, (r.ofDomain d).map (fun a => a.index.toNat) = List.range (r.ofDomain d).length
  derived : ∀ a ∈ r.accounts, ∃ chain addr,
    accountAddress K mnemonic a.domain a.index chain .openZeppelin = .ok addr ∧
      a.address = addressHex addr
  owned : ∀ a ∈ r.accounts, a.ownerClientId.isSome ↔ a.domain = .agent

theorem numbered_empty (K : Crates) (mnemonic : String) : Numbered K mnemonic empty :=
  ⟨fun _ => rfl, fun _ h => absurd h List.not_mem_nil, fun _ h => absurd h List.not_mem_nil⟩

namespace Numbered

variable {K : Crates} {mnemonic : String} {r : Registry}

theorem mem_index_iff (h : r.Numbered K mnemonic) (d : Domain) (i : ℕ) :
    (∃ a ∈ r.accounts, a.domain = d ∧ a.index.toNat = i) ↔ i < (r.ofDomain d).length := by
  rw [← List.mem_range, ← h.indices d, List.mem_map]
  simp only [ofDomain, List.mem_filter, decide_eq_true_eq, and_assoc]

theorem index_lt (h : r.Numbered K mnemonic) {a : AccountRef} (ha : a ∈ r.accounts) :
    a.index.toNat + 1 < 2 ^ 32 := by
  obtain ⟨chain, addr, haddr, -⟩ := h.derived a ha
  exact checkIndex_lt (checkIndex_of_accountAddress haddr)

/-- A domain never holds so many accounts that the next index would overflow. -/
theorem length_lt (h : r.Numbered K mnemonic) (d : Domain) : (r.ofDomain d).length < 2 ^ 32 := by
  by_contra hge
  obtain ⟨a, ha, -, hi⟩ := (h.mem_index_iff d ((r.ofDomain d).length - 1)).2 (by omega)
  have := h.index_lt ha
  omega

/-- The next index is the number of accounts. -/
theorem nextIndex_toNat (h : r.Numbered K mnemonic) (d : Domain) :
    (r.nextIndex d).toNat = (r.ofDomain d).length := by
  have hlt := h.length_lt d
  have hmap : (r.accounts.filter fun a => a.domain = d).map (fun a => a.index.toNat) =
      List.range (r.ofDomain d).length := h.indices d
  unfold nextIndex
  rw [hmap]
  cases hn : (r.ofDomain d).length with
  | zero => rfl
  | succ n =>
      have hmax : (List.range (n + 1)).max? = some n := by
        rw [List.max?_eq_some_iff]
        exact ⟨List.mem_range.2 (Nat.lt_succ_self n), fun b hb => Nat.lt_succ_iff.1 (List.mem_range.1 hb)⟩
      have hadd : (BitVec.ofNat 32 n + 1).toNat = (n % 2 ^ 32 + 1) % 2 ^ 32 := by
        rw [BitVec.toNat_add, BitVec.toNat_ofNat]
        rfl
      rw [hmax, hadd]
      omega

theorem nodup_of_filter {α β γ : Type} [DecidableEq β] {f : α → β} {g : α → γ} {l : List α}
    (h : ∀ b, ((l.filter fun a => f a = b).map g).Nodup) : (l.map fun a => (f a, g a)).Nodup := by
  induction l with
  | nil => exact List.nodup_nil
  | cons a l ih =>
      have hhead : g a ∉ (l.filter fun x => f x = f a).map g := by
        have := h (f a)
        rw [List.filter_cons_of_pos (by simp), List.map_cons] at this
        exact (List.nodup_cons.1 this).1
      refine List.nodup_cons.2 ⟨fun hmem => hhead ?_, ih fun b => ?_⟩
      · obtain ⟨x, hx, heq⟩ := List.mem_map.1 hmem
        obtain ⟨hf, hg⟩ := Prod.mk.inj heq
        exact List.mem_map.2 ⟨x, List.mem_filter.2 ⟨hx, by simpa using hf⟩, hg⟩
      · by_cases hb : f a = b
        · have := h b
          rw [List.filter_cons_of_pos (by simpa using hb), List.map_cons] at this
          exact (List.nodup_cons.1 this).2
        · have := h b
          rwa [List.filter_cons_of_neg (by simpa using hb)] at this

theorem nodup_indices (h : r.Numbered K mnemonic) :
    (r.accounts.map fun a => (a.domain, a.index)).Nodup := by
  refine nodup_of_filter fun d => List.Nodup.of_map BitVec.toNat ?_
  rw [List.map_map]
  exact (h.indices d).symm ▸ List.nodup_range

theorem nodup_addresses (h : r.Numbered K mnemonic) (hpaths : PathsApart K mnemonic) :
    (r.accounts.map AccountRef.address).Nodup := by
  have hpairs := List.pairwise_map.1 h.nodup_indices
  refine List.pairwise_map.2 (hpairs.imp_of_mem fun {a b} ha hb hne heq => ?_)
  obtain ⟨chain, addr, haddr, hhex⟩ := h.derived a ha
  obtain ⟨chain', addr', haddr', hhex'⟩ := h.derived b hb
  have hsame : addr = addr' := addressHex_injective (hhex.symm.trans (heq.trans hhex'))
  refine hpaths _ _ _ _ _ _ _ _ haddr haddr' (fun hpath => hne ?_) hsame
  exact pathIndices_injective (checkIndex_of_accountAddress haddr)
    (checkIndex_of_accountAddress haddr') hpath

/-- Every account is visible in one scope: its owner's. -/
theorem mem_scopedFor_iff (h : r.Numbered K mnemonic) {a : AccountRef} (ha : a ∈ r.accounts)
    (scope : Option String) : a ∈ r.scopedFor scope ↔ scope = a.ownerClientId := by
  have howned := h.owned a ha
  cases scope with
  | none =>
      rw [mem_scopedFor_none]
      cases ho : a.ownerClientId with
      | none =>
          have hne : a.domain ≠ .agent := fun hd => by simp [ho, hd] at howned
          cases hd : a.domain with
          | user => simp [ha]
          | agent => exact absurd hd hne
      | some id =>
          have hd : a.domain = .agent := howned.1 (by rw [ho]; rfl)
          simp [hd]
  | some id =>
      rw [mem_scopedFor_some]
      constructor
      · exact fun hm => hm.2.symm
      · exact fun hm => ⟨ha, hm.symm⟩

/-- A new account at the next index. -/
theorem add (h : r.Numbered K mnemonic) {a : AccountRef} {chain : ChainId} {addr : Felt}
    (hindex : a.index = r.nextIndex a.domain)
    (haddr : accountAddress K mnemonic a.domain a.index chain .openZeppelin = .ok addr)
    (hhex : a.address = addressHex addr) (howner : a.ownerClientId.isSome ↔ a.domain = .agent) :
    (r.add a).Numbered K mnemonic where
  indices d := by
    by_cases hd : a.domain = d
    · have hof : (r.add a).ofDomain d = r.ofDomain d ++ [a] := by
        simp [ofDomain, Registry.add, List.filter_append, hd]
      have hnext : a.index.toNat = (r.ofDomain d).length := by
        rw [hindex, hd]
        exact h.nextIndex_toNat d
      rw [hof, List.map_append, h.indices d, List.length_append]
      simp [hnext, List.range_succ]
    · have hof : (r.add a).ofDomain d = r.ofDomain d := by
        simp [ofDomain, Registry.add, List.filter_append, hd]
      rw [hof]
      exact h.indices d
  derived b hb := by
    rcases List.mem_append.1 hb with hb | hb
    · exact h.derived b hb
    · rw [List.mem_singleton.1 hb]
      exact ⟨chain, addr, haddr, hhex⟩
  owned b hb := by
    rcases List.mem_append.1 hb with hb | hb
    · exact h.owned b hb
    · rw [List.mem_singleton.1 hb]
      exact howner

/-- Removing a new account by its address gives the registry back. -/
theorem removeByAddress_add {a : AccountRef} (h : (r.add a).Numbered K mnemonic)
    (hpaths : PathsApart K mnemonic) : (r.add a).removeByAddress a.address = r := by
  have hnodup := h.nodup_addresses hpaths
  have hmap : (r.add a).accounts.map AccountRef.address =
      r.accounts.map AccountRef.address ++ [a.address] := by
    simp [Registry.add]
  rw [hmap] at hnodup
  have hnew : ∀ b ∈ r.accounts, b.address ≠ a.address := fun b hb heq =>
    List.disjoint_of_nodup_append hnodup (List.mem_map.2 ⟨b, hb, heq⟩) (List.mem_singleton.2 rfl)
  have hkeep : r.accounts.filter (fun b => b.address ≠ a.address) = r.accounts :=
    List.filter_eq_self.2 fun b hb => by simpa using hnew b hb
  simp only [removeByAddress, Registry.add, List.filter_append, hkeep]
  simp

end Numbered

end Registry

end Strkd.Wallet

namespace Strkd.Rpc

open Wallet

/-! ## Runs of a session -/

/-- A session with the vaults resealed from it so far, and the address of the account just created. -/
structure SessionRun where
  session : WalletSession
  vaults : List EncryptedVault
  created : Option String

inductive SessionOp where
  | createAgentAccount (clientId label : String)
  | createUserAccount (label : String)
  /-- Roll back the account just created. -/
  | rollbackAccount
  | lock
  /-- Unlock with a vault resealed before. -/
  | unlock (vault : EncryptedVault) (passphrase : String)
  | setChain (chain : ChainId)
  | reseal (draws : SealDraws)

namespace SessionRun

variable (K : Crates)

/-- The outcome of a creation. -/
def created? (st : SessionRun) : Except WalletRpcError (AccountRef × WalletSession) → SessionRun
  | .ok (account, session) => { st with session, created := some account.address }
  | .error _ => st

def step (st : SessionRun) : SessionOp → SessionRun
  | .createAgentAccount clientId label =>
      st.created? (st.session.createAgentAccount K clientId label)
  | .createUserAccount label => st.created? (st.session.createUserAccount K label)
  | .rollbackAccount =>
      match st.created with
      | some address =>
          { st with session := st.session.rollbackAccount address, created := none }
      | none => st
  | .lock => { st with session := st.session.lock, created := none }
  | .unlock vault passphrase =>
      if vault ∈ st.vaults then
        match st.session.unlock K vault passphrase with
        | .ok session => { st with session, created := none }
        | .error _ => st
      else st
  | .setChain chain => { st with session := st.session.setChain chain }
  | .reseal draws =>
      match st.session.reseal K draws with
      | .ok vault => { st with vaults := vault :: st.vaults }
      | .error _ => st

def run (ops : List SessionOp) (st : SessionRun) : SessionRun := ops.foldl (step K) st

/-- A fresh wallet, unlocked and without accounts. -/
def start (chain : ChainId) (mnemonic passphrase : String) : SessionRun where
  session := .newUnlocked chain mnemonic passphrase .empty
  vaults := []
  created := none

/-- What every run keeps: the session and each resealed vault hold a numbered registry of the seed,
and the account just created is the last of its registry. -/
structure Inv (mnemonic : String) (st : SessionRun) : Prop where
  unlocked : ∀ u, st.session.unlocked = some u →
    u.mnemonic = mnemonic ∧ u.registry.Numbered K mnemonic
  vaults : ∀ v ∈ st.vaults, ∀ passphrase c, v.contents K passphrase = some c →
    c.mnemonic = mnemonic ∧ c.registry.Numbered K mnemonic
  created : ∀ u, st.session.unlocked = some u → ∀ address, st.created = some address →
    ∃ (r : Registry) (a : AccountRef), a.address = address ∧ u.registry = r.add a ∧
      r.Numbered K mnemonic

variable {K} {mnemonic : String} {st : SessionRun}

theorem inv_start (chain : ChainId) (passphrase : String) :
    (start chain mnemonic passphrase).Inv K mnemonic where
  unlocked u hu := by
    cases hu
    exact ⟨rfl, Registry.numbered_empty K mnemonic⟩
  vaults v hv := absurd hv List.not_mem_nil
  created u _ address h := by cases h

/-- A created account is numbered, and the session holds it at the end of its registry. -/
theorem createAccount_numbered {s s' : WalletSession} {domain : Domain} {label : String}
    {owner : Option String} {a : AccountRef} (h : s.createAccount K domain label owner = .ok (a, s'))
    (hs : ∀ u, s.unlocked = some u → u.mnemonic = mnemonic ∧ u.registry.Numbered K mnemonic)
    (howner : owner.isSome ↔ domain = .agent) :
    ∃ u, s.unlocked = some u ∧ s'.unlocked = some { u with registry := u.registry.add a } ∧
      s'.chain = s.chain ∧ (u.registry.add a).Numbered K mnemonic := by
  simp only [WalletSession.createAccount, WalletSession.nextAccount, except_bind_eq_ok,
    except_pure_eq_ok, Prod.mk.injEq] at h
  obtain ⟨b, ⟨u, hu, addr, haddr, rfl⟩, rfl, rfl⟩ := h
  have hu := WalletSession.requireUnlocked_eq_ok hu
  obtain ⟨rfl, hnum⟩ := hs u hu
  refine ⟨u, hu, ?_, rfl, ?_⟩
  · rw [WalletSession.mapRegistry, hu]
    rfl
  · exact hnum.add rfl (liftCore_eq_ok haddr) rfl howner

theorem Inv.created? (h : st.Inv K mnemonic) {domain : Domain} {label : String}
    {owner : Option String} (howner : owner.isSome ↔ domain = .agent) :
    (st.created? (st.session.createAccount K domain label owner)).Inv K mnemonic := by
  cases hc : st.session.createAccount K domain label owner with
  | error e => exact h
  | ok res =>
      obtain ⟨a, s'⟩ := res
      obtain ⟨u, hu, hu', -, hnum⟩ := createAccount_numbered hc h.unlocked howner
      obtain ⟨hmn, hold⟩ := h.unlocked u hu
      refine ⟨fun w hw => ?_, h.vaults, fun w hw address haddress => ?_⟩
      · cases hu'.symm.trans hw
        exact ⟨hmn, hnum⟩
      · cases hu'.symm.trans hw
        cases haddress
        exact ⟨u.registry, a, rfl, rfl, hold⟩

theorem Inv.step (hK : K.Authentic) (hpaths : PathsApart K mnemonic) (h : st.Inv K mnemonic)
    (op : SessionOp) : (st.step K op).Inv K mnemonic := by
  cases op with
  | createAgentAccount clientId label => exact h.created? (by simp)
  | createUserAccount label => exact h.created? (by simp)
  | rollbackAccount =>
      cases hc : st.created with
      | none => simpa only [SessionRun.step, hc] using h
      | some address =>
          simp only [SessionRun.step, hc]
          refine ⟨fun w hw => ?_, h.vaults, fun _ _ _ h => nomatch h⟩
          -- only the account just created is removed
          obtain ⟨u, hu, rfl⟩ := Option.map_eq_some_iff.1 hw
          obtain ⟨r, a, rfl, hreg, hr⟩ := h.created u hu address hc
          obtain ⟨hmn, hnum⟩ := h.unlocked u hu
          rw [hreg] at hnum
          refine ⟨hmn, ?_⟩
          dsimp only
          rw [hreg, hnum.removeByAddress_add hpaths]
          exact hr
  | lock => exact ⟨fun _ h => (nomatch h), h.vaults, fun _ h => nomatch h⟩
  | unlock vault passphrase =>
      simp only [SessionRun.step]
      split_ifs with hv
      · cases hu : st.session.unlock K vault passphrase with
        | error e => exact h
        | ok session =>
            refine ⟨fun w hw => ?_, h.vaults, fun _ _ _ h => nomatch h⟩
            obtain ⟨contents, hopened, rfl⟩ := WalletSession.unlock_eq_ok hu
            cases hw
            exact h.vaults vault hv passphrase contents hopened
      · exact h
  | setChain chain => exact ⟨h.unlocked, h.vaults, h.created⟩
  | reseal draws =>
      simp only [SessionRun.step]
      cases hr : st.session.reseal K draws with
      | error e => exact h
      | ok vault =>
          refine ⟨h.unlocked, fun v hv passphrase c hopened => ?_, h.created⟩
          rcases List.mem_cons.1 hv with rfl | hv
          · obtain ⟨u, hu, hsealed⟩ := WalletSession.reseal_eq_ok hr
            rw [EncryptedVault.contents_eq_of_sealed hK hsealed hopened]
            exact h.unlocked u hu
          · exact h.vaults v hv passphrase c hopened

theorem Inv.run (hK : K.Authentic) (hpaths : PathsApart K mnemonic) (ops : List SessionOp)
    (h : st.Inv K mnemonic) : (st.run K ops).Inv K mnemonic := by
  induction ops generalizing st with
  | nil => exact h
  | cons op ops ih => exact ih (h.step hK hpaths op)

end SessionRun

/-! ## What holds of the registry -/

/-- A registry in which accounts are numbered without gaps and seen in one scope each. -/
structure WellKept (r : Registry) : Prop where
  distinct : (r.accounts.map fun a => (a.domain, a.index)).Nodup
  numbered : ∀ d, ∃ n, ∀ i, (∃ a ∈ r.accounts, a.domain = d ∧ a.index.toNat = i) ↔ i < n
  addresses : (r.accounts.map AccountRef.address).Nodup
  owners : ∀ a ∈ r.accounts, a.ownerClientId.isSome ↔ a.domain = .agent
  scope : ∀ a ∈ r.accounts, ∀ scope, a ∈ r.scopedFor scope ↔ scope = a.ownerClientId
  /-- The next index does not overflow. -/
  next : ∀ d, (∀ a ∈ r.accounts, a.domain = d → a.index.toNat + 1 < 2 ^ 32) ∧
    (r.nextIndex d).toNat = (r.ofDomain d).length

/-- A creation changes nothing when it fails, and rolling it back restores the session. -/
def Undoable (s : WalletSession) (after : SessionRun)
    (result : Except WalletRpcError (AccountRef × WalletSession)) : Prop :=
  match result with
  | .ok (a, s') => after.session = s' ∧ s'.rollbackAccount a.address = s
  | .error _ => after.session = s

theorem SessionRun.Inv.undoable {K : Crates} {mnemonic : String} {st : SessionRun}
    (hpaths : PathsApart K mnemonic) (h : st.Inv K mnemonic) {domain : Domain} {label : String}
    {owner : Option String} (howner : owner.isSome ↔ domain = .agent) :
    Undoable st.session (st.created? (st.session.createAccount K domain label owner))
      (st.session.createAccount K domain label owner) := by
  cases hc : st.session.createAccount K domain label owner with
  | error e => rfl
  | ok res =>
      obtain ⟨a, s'⟩ := res
      obtain ⟨u, hu, hu', hchain, hnum⟩ := createAccount_numbered hc h.unlocked howner
      refine ⟨rfl, ?_⟩
      have hback := hnum.removeByAddress_add hpaths
      cases s' with
      | mk chain unlocked =>
          cases hs : st.session with
          | mk chain' unlocked' =>
              rw [hs] at hu hchain
              dsimp only at hu hu' hchain
              subst hchain hu hu'
              simp only [WalletSession.rollbackAccount, WalletSession.mapRegistry, Option.map_some,
                hback]

/-- In every run from an empty registry: accounts are numbered from 0 without gaps in each domain,
addresses are distinct, each account is seen in exactly one scope, the next index does not overflow,
and a creation can be undone. -/
theorem session_registry (K : Crates) (chain : ChainId) (mnemonic passphrase : String)
    (ops : List SessionOp) (r : Registry) (hK : K.Authentic) (hpaths : PathsApart K mnemonic)
    (h : ((SessionRun.start chain mnemonic passphrase).run K ops).session.registry = .ok r) :
    WellKept r ∧ ∀ st, st = (SessionRun.start chain mnemonic passphrase).run K ops →
      (∀ clientId label, Undoable st.session (st.step K (.createAgentAccount clientId label))
        (st.session.createAgentAccount K clientId label)) ∧
      ∀ label, Undoable st.session (st.step K (.createUserAccount label))
        (st.session.createUserAccount K label) := by
  have hstart : (SessionRun.start chain mnemonic passphrase).Inv K mnemonic :=
    SessionRun.inv_start chain passphrase
  have hinv := hstart.run hK hpaths ops
  obtain ⟨u, hu, rfl⟩ := WalletSession.registry_eq_ok h
  obtain ⟨-, hnum⟩ := hinv.unlocked u hu
  constructor
  · exact {
      distinct := hnum.nodup_indices
      numbered := fun d => ⟨_, hnum.mem_index_iff d⟩
      addresses := hnum.nodup_addresses hpaths
      owners := hnum.owned
      scope := fun a ha => hnum.mem_scopedFor_iff ha
      next := fun d => ⟨fun a ha _ => hnum.index_lt ha, hnum.nextIndex_toNat d⟩ }
  · rintro st rfl
    exact ⟨fun _ _ => hinv.undoable hpaths (by simp), fun _ => hinv.undoable hpaths (by simp)⟩

/-! ## A short run -/

theorem plainCrates_address {mnemonic : String} {d : Domain} {i : U32} {chain : ChainId} {addr : Felt}
    (h : accountAddress plainCrates mnemonic d i chain .openZeppelin = .ok addr) :
    addr = .ofNat (2 ^ 32 * (d.pathIndices i).1.toNat + (d.pathIndices i).2.toNat + 1) := by
  simp only [accountAddress, deploymentData, publicKey, privateKey, AccountContract.deployment,
    plainCrates, except_bind_eq_ok, except_pure_eq_ok] at h
  obtain ⟨_, ⟨_, ⟨_, ⟨_, -, h₁⟩, h₂⟩, h₃⟩, rfl⟩ := h
  cases h₁
  cases h₂
  cases h₃
  rfl

theorem plainCrates_pathsApart (mnemonic : String) : PathsApart plainCrates mnemonic := by
  intro d i chain addr d' i' chain' addr' h h' hpath heq
  rw [plainCrates_address h, plainCrates_address h'] at heq
  have hval := congrArg Fin.val heq
  have h₁ := (d.pathIndices i).1.isLt
  have h₂ := (d.pathIndices i).2.isLt
  have h₃ := (d'.pathIndices i').1.isLt
  have h₄ := (d'.pathIndices i').2.isLt
  have hprime : 2 ^ 64 + 1 < feltPrime := by decide
  rw [Felt.val_ofNat_of_lt (by omega), Felt.val_ofNat_of_lt (by omega)] at hval
  exact hpath (Prod.ext (BitVec.eq_of_toNat_eq (by omega)) (BitVec.eq_of_toNat_eq (by omega)))

/-- The first agent account of the seed. -/
def botAccount : AccountRef := ⟨.agent, 0,
  addressHex (.ofNat (2 ^ 32 * agentAccountIndex.toNat + 1)), "bot", .openZeppelin, some "c1"⟩

/-- An account is created and resealed, the next is rolled back, and the resealed vault is opened
again after a lock. -/
def shortRun : List SessionOp :=
  [.createAgentAccount "c1" "bot", .reseal plainDraws, .createUserAccount "main", .rollbackAccount,
    .setChain .mainnet, .lock, .unlock (plainVault "pass" ⟨"seed", ⟨[botAccount]⟩⟩) "pass"]

/-- Before the vault is opened again. -/
theorem run_take_shortRun :
    (shortRun.take 6).foldl (SessionRun.step plainCrates) (.start .sepolia "seed" "pass") =
      ⟨⟨.mainnet, none⟩, [plainVault "pass" ⟨"seed", ⟨[botAccount]⟩⟩], none⟩ := rfl

/-- A vault resealed before opens under its passphrase. -/
theorem step_unlock {K : Crates} {st : SessionRun} {v : EncryptedVault} {passphrase : String}
    {c : VaultContents} (hv : v ∈ st.vaults) (h : v.contents K passphrase = some c) :
    st.step K (.unlock v passphrase) = { st with
      session := { st.session with unlocked := some ⟨c.mnemonic, passphrase, c.registry⟩ }
      created := none } := by
  rw [SessionRun.step, if_pos hv, WalletSession.unlock_of_contents h]

theorem session_registry_shortRun : WellKept ⟨[botAccount]⟩ := by
  have hsplit : shortRun = shortRun.take 6 ++
      [.unlock (plainVault "pass" ⟨"seed", ⟨[botAccount]⟩⟩) "pass"] := rfl
  have hregistry : ((SessionRun.start .sepolia "seed" "pass").run plainCrates
      shortRun).session.registry = .ok ⟨[botAccount]⟩ := by
    rw [hsplit, SessionRun.run, List.foldl_append, run_take_shortRun, List.foldl_cons,
      step_unlock (List.mem_singleton_self _) (contents_plainVault _ _)]
    rfl
  exact (session_registry plainCrates .sepolia "seed" "pass" shortRun _ plainCrates_authentic
    (plainCrates_pathsApart "seed") hregistry).1

end Strkd.Rpc
