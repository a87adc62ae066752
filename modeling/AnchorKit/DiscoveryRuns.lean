import AnchorKit.CacheTtl
import AnchorKit.EntryPoints

/-!
# Runs with discovery

Whatever is served of an anchor's `stellar.toml` is what the anchor itself wrote last, at a time to
live that the policy of the time admits, and is not served beyond it. Its assets have passed their
validation, so that limits are in order and no fee is above the whole amount. The host's
own expiry of temporary entries is left out: an entry that it drops is served no more.
-/

namespace AnchorKit

open Fallible Machine AnchorInfo

def tomlEntry (env : Env) (s : Storage) (tomlData : StellarToml) (ttlSeconds : UInt64)
    (sourceUri : String) : CachedToml :=
  { toml := tomlData
    cachedAt := env.timestamp
    ttlSeconds := (CacheGovernance.enforceWritePolicy s .capabilities
      (effectiveTtl ttlSeconds (getCacheConfigInternal s).capabilitiesTtlSeconds) 0).1
    sourceUri
    lastRefreshedAt := env.timestamp }

def tomlWritten (anchor : Address) (t : ContractState.Transition) : Option CachedToml :=
  match t.input.2 with
  | .fetchAnchorInfo a tomlData ttlSeconds sourceUri
  | .refreshAnchorInfo a tomlData ttlSeconds sourceUri =>
    if a = anchor then some (tomlEntry t.input.1 t.pre.core tomlData ttlSeconds sourceUri) else none
  | _ => none

/-- The asset has a code, its fees are parts of the amount and its limits are in order. -/
structure AnchorInfo.AssetInfo.Sound (asset : AssetInfo) : Prop where
  code : asset.code.utf8ByteSize ≠ 0 ∧ asset.code.utf8ByteSize ≤ 12
  deposit_fee : asset.depositFeePercent ≤ 10000
  withdrawal_fee : asset.withdrawalFeePercent ≤ 10000
  deposit_limits : asset.depositMaxAmount = 0 ∨ asset.depositMinAmount ≤ asset.depositMaxAmount
  withdrawal_limits : asset.withdrawalMaxAmount = 0 ∨
    asset.withdrawalMinAmount ≤ asset.withdrawalMaxAmount

structure WrittenSoundly (anchor : Address) (cached : CachedToml) (t : ContractState.Transition) :
    Prop where
  authorized : anchor ∈ t.input.1.authorized
  sound : ∀ asset ∈ cached.toml.currencies, asset.Sound
  admitted : (CacheGovernance.getPolicy t.pre.core .capabilities).Admits cached.ttlSeconds

structure Published (env : Env) (past : List ContractState.Transition) (anchor : Address)
    (cached : CachedToml) : Prop where
  last : lastSome (tomlWritten anchor) past = some cached
  written : ∃ t ∈ past, tomlWritten anchor t = some cached ∧ WrittenSoundly anchor cached t
  alive : env.timestamp.toNat < cached.cachedAt.toNat + cached.ttlSeconds.toNat

section Writes

variable {host : Host} {sha256 : Bytes → BytesN 32} {env : Env} {s s' : Storage}
  {tomls tomls' : TomlStore} {anchor : Address} {tomlData : StellarToml} {ttlSeconds : UInt64}
  {sourceUri : String} {t : ContractState.Transition}

theorem validateAssetInfo_eq_ok {asset : AssetInfo} {u : Unit} :
    validateAssetInfo asset = .ok u ↔ asset.Sound := by
  simp only [validateAssetInfo, validateCurrencyCode, validateFeePercent, validateAmountLimits,
    bind_eq_ok, require_eq_ok]
  constructor
  · rintro ⟨_, hcode, _, hdeposit, _, hwithdrawal, _, hlimits, hlimits'⟩
    exact ⟨hcode, hdeposit, hwithdrawal, hlimits, hlimits'⟩
  · intro h
    exact ⟨(), h.code, (), h.deposit_fee, (), h.withdrawal_fee, (), h.deposit_limits,
      h.withdrawal_limits⟩

theorem fetchAnchorInfo_effects
    (h : fetchAnchorInfo env s tomls anchor tomlData ttlSeconds sourceUri = .ok tomls') :
    anchor ∈ env.authorized ∧ (∀ asset ∈ tomlData.currencies, asset.Sound) ∧
      tomls' = tomls.set anchor (tomlEntry env s tomlData ttlSeconds sourceUri) := by
  simp only [fetchAnchorInfo, bind_eq_ok, requireAuth_eq_ok, pure_eq_ok] at h
  obtain ⟨_, hauth, _, hvalid, rfl⟩ := h
  exact ⟨hauth, fun asset hasset => validateAssetInfo_eq_ok.mp (forM_eq_ok.mp hvalid asset hasset),
    rfl⟩

theorem refreshAnchorInfo_effects
    (h : refreshAnchorInfo env s tomls anchor tomlData ttlSeconds sourceUri = .ok (s', tomls')) :
    anchor ∈ env.authorized ∧ (∀ asset ∈ tomlData.currencies, asset.Sound) ∧
      tomls' = tomls.set anchor (tomlEntry env s tomlData ttlSeconds sourceUri) ∧
      ∃ diagnostics, s' = { s with cache := { s.cache with diagnostics := diagnostics } } := by
  simp only [refreshAnchorInfo, bind_eq_ok, requireAuth_eq_ok, pure_eq_ok, Prod.mk.injEq] at h
  obtain ⟨_, hauth, _, hfetch, rfl, rfl⟩ := h
  obtain ⟨_, hsound, rfl⟩ := fetchAnchorInfo_effects hfetch
  exact ⟨hauth, hsound, rfl, _, rfl⟩

theorem enter_policies {e : EntryPoint} {s s' : ContractState}
    (h : ContractState.enter host sha256 env s e = .ok s') :
    (∃ c, e = .core c ∧ invoke host env s.core c = .ok s'.core) ∨
      s'.core.cache.policies = s.core.cache.policies := by
  have hsame := ContractState.enter_sameOutside h
  cases e with
  | core c =>
    simp only [ContractState.enter, bind_eq_ok, pure_eq_ok] at h
    obtain ⟨_, hinvoke, rfl⟩ := h
    exact Or.inl ⟨c, rfl, hinvoke⟩
  | setEndpoint attestor endpoint =>
    simp only [ContractState.enter, bind_eq_ok, pure_eq_ok] at h
    obtain ⟨_, hset, rfl⟩ := h
    obtain ⟨_, _, _, _, _, rfl⟩ := setEndpoint_effects hset
    exact Or.inr rfl
  | registerWebhook attestor webhookUrl =>
    simp only [ContractState.enter, bind_eq_ok, pure_eq_ok] at h
    obtain ⟨_, hset, rfl⟩ := h
    obtain ⟨_, _, _, rfl⟩ := registerWebhook_effects hset
    exact Or.inr rfl
  | refreshAnchorInfo anchor tomlData ttlSeconds sourceUri =>
    simp only [ContractState.enter, bind_eq_ok, pure_eq_ok] at h
    obtain ⟨_, hrefresh, rfl⟩ := h
    obtain ⟨_, _, _, _, hcore⟩ := refreshAnchorInfo_effects hrefresh
    exact Or.inr (by rw [hcore])
  | createRequestContext rootRequestId =>
    simp only [ContractState.enter, createRequestContext, bind_eq_ok, pure_eq_ok] at h
    obtain ⟨_, ⟨_, _, _, _, rfl⟩, rfl⟩ := h
    exact Or.inr rfl
  | appendOperation rootRequestIdBytes operationName =>
    simp only [ContractState.enter, appendOperation, bind_eq_ok, pure_eq_ok] at h
    obtain ⟨_, ⟨_, _, rfl⟩, rfl⟩ := h
    exact Or.inr rfl
  | _ =>
    have hcore : s'.core = s.core := hsame .core (by simp [ContractState.writes])
    exact Or.inr (by rw [hcore])

theorem banded_step (h : ContractState.step host sha256 t.pre t.input = .ok t.post)
    (hpre : PoliciesBanded t.pre.core) : PoliciesBanded t.post.core := by
  rcases enter_policies h with ⟨c, _, hinvoke⟩ | hpolicies
  · exact policiesBanded_of_step (cache_step (i := (t.input.1, c)) hinvoke) hpre
  · exact policiesBanded_of_policies hpre hpolicies

theorem toml_step (h : ContractState.step host sha256 t.pre t.input = .ok t.post)
    (hbanded : PoliciesBanded t.pre.core) (anchor : Address) :
    t.post.tomls.get anchor = (tomlWritten anchor t).or (t.pre.tomls.get anchor) ∧
      ∀ cached, tomlWritten anchor t = some cached → WrittenSoundly anchor cached t := by
  obtain ⟨pre, ⟨env, e⟩, post⟩ := t
  have hsame := ContractState.enter_sameOutside h
  have hwrite {a : Address} {tomlData : StellarToml} {ttlSeconds : UInt64} {sourceUri : String}
      (hauth : a ∈ env.authorized) (hsound : ∀ asset ∈ tomlData.currencies, asset.Sound)
      (hwritten : tomlWritten anchor ⟨pre, (env, e), post⟩ =
        if a = anchor then some (tomlEntry env pre.core tomlData ttlSeconds sourceUri) else none)
      (htomls : post.tomls =
        pre.tomls.set a (tomlEntry env pre.core tomlData ttlSeconds sourceUri)) :
      post.tomls.get anchor = (tomlWritten anchor ⟨pre, (env, e), post⟩).or (pre.tomls.get anchor) ∧
        ∀ cached, tomlWritten anchor ⟨pre, (env, e), post⟩ = some cached →
          WrittenSoundly anchor cached ⟨pre, (env, e), post⟩ := by
    rw [hwritten, htomls, KeyedStore.get_set]
    by_cases ha : a = anchor
    · subst ha
      rw [if_pos rfl, if_pos rfl]
      refine ⟨rfl, fun cached hcached => ?_⟩
      obtain rfl := Option.some.inj hcached
      exact ⟨hauth, hsound, CachePolicy.admits_clampTtl (hbanded .capabilities) _⟩
    · rw [if_neg ha, if_neg (Ne.symm ha)]
      refine ⟨rfl, fun cached hcached => ?_⟩
      cases hcached
  cases e with
  | fetchAnchorInfo a tomlData ttlSeconds sourceUri =>
    simp only [ContractState.step, ContractState.enter, bind_eq_ok, pure_eq_ok] at h
    obtain ⟨_, hfetch, rfl⟩ := h
    obtain ⟨hauth, hsound, rfl⟩ := fetchAnchorInfo_effects hfetch
    exact hwrite hauth hsound rfl rfl
  | refreshAnchorInfo a tomlData ttlSeconds sourceUri =>
    simp only [ContractState.step, ContractState.enter, bind_eq_ok, pure_eq_ok] at h
    obtain ⟨_, hrefresh, rfl⟩ := h
    obtain ⟨hauth, hsound, htomls, _⟩ := refreshAnchorInfo_effects hrefresh
    exact hwrite hauth hsound rfl htomls
  | _ =>
    have htomls : post.tomls = pre.tomls := hsame .tomls (by simp [ContractState.writes])
    refine ⟨congrArg (fun tomls : TomlStore => tomls.get anchor) htomls, ?_⟩
    intro cached hnone
    cases hnone

end Writes

/-! ### What is served -/

/-- The first asset with the code in a published entry. -/
structure PublishedAsset (env : Env) (past : List ContractState.Transition) (anchor : Address)
    (code : String) (asset : AssetInfo) : Prop where
  named : asset.code = code
  sound : asset.Sound
  entry : ∃ cached, Published env past anchor cached ∧
    ∃ before after, cached.toml.currencies = before ++ asset :: after ∧
      ∀ other ∈ before, other.code ≠ code

/-- What is served of an anchor, and that it is served only of a published entry. -/
structure DiscoveryServed (env : Env) (past : List ContractState.Transition) (tomls : TomlStore)
    (anchor : Address) : Prop where
  toml : ∀ toml, getAnchorToml env tomls anchor = .ok toml →
    ∃ cached, Published env past anchor cached ∧ cached.toml = toml
  provenance : ∀ p, getAnchorTomlProvenance env tomls anchor = .ok p → p.anchor = anchor ∧
    ∃ cached, Published env past anchor cached ∧ p.sourceUri = cached.sourceUri ∧
      p.cachedAt = cached.cachedAt ∧ p.lastRefreshedAt = cached.lastRefreshedAt ∧
      p.ttlSeconds = cached.ttlSeconds ∧
      p.ageSeconds.toNat = env.timestamp.toNat - cached.cachedAt.toNat
  assets : ∀ codes, getAnchorAssets env tomls anchor = .ok codes →
    ∃ cached, Published env past anchor cached ∧ codes = cached.toml.currencies.map AssetInfo.code
  asset : ∀ code asset, getAnchorAssetInfo env tomls anchor code = .ok asset →
    PublishedAsset env past anchor code asset
  deposit_limits : ∀ code low high, getAnchorDepositLimits env tomls anchor code = .ok (low, high) →
    (∃ asset, PublishedAsset env past anchor code asset ∧ low = asset.depositMinAmount ∧
      high = asset.depositMaxAmount) ∧ (high = 0 ∨ low ≤ high)
  withdrawal_limits : ∀ code low high,
    getAnchorWithdrawalLimits env tomls anchor code = .ok (low, high) →
      (∃ asset, PublishedAsset env past anchor code asset ∧ low = asset.withdrawalMinAmount ∧
        high = asset.withdrawalMaxAmount) ∧ (high = 0 ∨ low ≤ high)
  deposit_fees : ∀ code fixed percent,
    getAnchorDepositFees env tomls anchor code = .ok (fixed, percent) →
      (∃ asset, PublishedAsset env past anchor code asset ∧ fixed = asset.depositFeeFixed ∧
        percent = asset.depositFeePercent) ∧ percent ≤ 10000
  withdrawal_fees : ∀ code fixed percent,
    getAnchorWithdrawalFees env tomls anchor code = .ok (fixed, percent) →
      (∃ asset, PublishedAsset env past anchor code asset ∧ fixed = asset.withdrawalFeeFixed ∧
        percent = asset.withdrawalFeePercent) ∧ percent ≤ 10000
  deposits : ∀ code enabled, anchorSupportsDeposits env tomls anchor code = .ok enabled →
    ∃ asset, PublishedAsset env past anchor code asset ∧ enabled = asset.depositEnabled
  withdrawals : ∀ code enabled, anchorSupportsWithdrawals env tomls anchor code = .ok enabled →
    ∃ asset, PublishedAsset env past anchor code asset ∧ enabled = asset.withdrawalEnabled
  sep31 : supportsSep31 env tomls anchor = .ok true →
    ∃ cached, Published env past anchor cached ∧ cached.toml.directPaymentServer ≠ ""

section Reads

variable {env : Env} {past : List ContractState.Transition} {tomls : TomlStore} {anchor : Address}

theorem liveToml_eq_ok {cached : CachedToml} (h : liveToml env tomls anchor = .ok cached) :
    tomls.get anchor = some cached ∧
      env.timestamp.toNat < cached.cachedAt.toNat + cached.ttlSeconds.toNat := by
  simp only [liveToml, bind_eq_ok, expect_eq_ok, add64_eq_ok, require_eq_ok, pure_eq_ok] at h
  obtain ⟨_, hget, expiresAt, hsum, _, hlive, rfl⟩ := h
  rw [UInt64.lt_iff_toNat_lt, ← hsum] at hlive
  exact ⟨hget, hlive⟩

theorem published_of_getAnchorAssetInfo {code : String} {asset : AssetInfo}
    (hlive : ∀ cached, liveToml env tomls anchor = .ok cached → Published env past anchor cached)
    (h : getAnchorAssetInfo env tomls anchor code = .ok asset) :
    PublishedAsset env past anchor code asset := by
  simp only [getAnchorAssetInfo, getAnchorToml, bind_eq_ok, expect_eq_ok, pure_eq_ok] at h
  obtain ⟨_, ⟨cached, hcached, rfl⟩, hfind⟩ := h
  have hpublished := hlive cached hcached
  obtain ⟨_, _, _, hwritten⟩ := hpublished.written
  obtain ⟨hcode, before, after, hsplit, hbefore⟩ := List.find?_eq_some_iff_append.mp hfind
  constructor
  · exact of_decide_eq_true hcode
  · exact hwritten.sound asset (List.mem_of_find?_eq_some hfind)
  · exact ⟨cached, hpublished, before, after, hsplit, fun other hother => by
      simpa using hbefore other hother⟩

theorem published_of_read {α : Type} {read : AssetInfo → α} {code : String} {value : α}
    (hlive : ∀ cached, liveToml env tomls anchor = .ok cached → Published env past anchor cached)
    (h : (getAnchorAssetInfo env tomls anchor code >>= fun asset => pure (read asset)) =
      .ok value) :
    ∃ asset, PublishedAsset env past anchor code asset ∧ value = read asset := by
  obtain ⟨asset, hget, hread⟩ := bind_eq_ok.mp h
  exact ⟨asset, published_of_getAnchorAssetInfo hlive hget, (pure_eq_ok.mp hread).symm⟩

theorem published_of_read_pair {α β : Type} {read : AssetInfo → α} {read' : AssetInfo → β}
    {code : String} {x : α} {y : β}
    (hlive : ∀ cached, liveToml env tomls anchor = .ok cached → Published env past anchor cached)
    (h : (getAnchorAssetInfo env tomls anchor code >>= fun asset =>
      pure (read asset, read' asset)) = .ok (x, y)) :
    ∃ asset, PublishedAsset env past anchor code asset ∧ x = read asset ∧ y = read' asset := by
  obtain ⟨asset, hasset, hvalue⟩ := published_of_read hlive h
  exact ⟨asset, hasset, Prod.mk.inj hvalue⟩

/-- The support of SEP-31 is read from the stored entry, with a check of its age of its own. -/
theorem published_of_supportsSep31
    (hstored : ∀ cached, tomls.get anchor = some cached →
      env.timestamp.toNat < cached.cachedAt.toNat + cached.ttlSeconds.toNat →
      Published env past anchor cached)
    (h : supportsSep31 env tomls anchor = .ok true) :
    ∃ cached, Published env past anchor cached ∧ cached.toml.directPaymentServer ≠ "" := by
  unfold supportsSep31 at h
  cases hget : tomls.get anchor with
  | none =>
    rw [hget] at h
    cases h
  | some cached =>
    rw [hget] at h
    simp only [bind_eq_ok, add64_eq_ok, pure_eq_ok, Bool.and_eq_true, decide_eq_true_eq] at h
    obtain ⟨expiresAt, hsum, hfresh, hserver⟩ := h
    rw [UInt64.lt_iff_toNat_lt, ← hsum] at hfresh
    exact ⟨cached, hstored cached hget hfresh, hserver⟩

/-- Everything but the last flag is read of a live entry. -/
theorem DiscoveryServed.of_live
    (hlive : ∀ cached, liveToml env tomls anchor = .ok cached → Published env past anchor cached)
    (hstored : ∀ cached, tomls.get anchor = some cached →
      env.timestamp.toNat < cached.cachedAt.toNat + cached.ttlSeconds.toNat →
      Published env past anchor cached) : DiscoveryServed env past tomls anchor := by
  constructor
  · intro toml h
    simp only [getAnchorToml, bind_eq_ok, pure_eq_ok] at h
    obtain ⟨cached, hcached, rfl⟩ := h
    exact ⟨cached, hlive cached hcached, rfl⟩
  · intro p h
    simp only [getAnchorTomlProvenance, bind_eq_ok, pure_eq_ok] at h
    obtain ⟨cached, hcached, rfl⟩ := h
    exact ⟨rfl, cached, hlive cached hcached, rfl, rfl, rfl, rfl, Word.toNat_saturatingSub64 _ _⟩
  · intro codes h
    simp only [getAnchorAssets, getAnchorToml, bind_eq_ok, pure_eq_ok] at h
    obtain ⟨_, ⟨cached, hcached, rfl⟩, rfl⟩ := h
    exact ⟨cached, hlive cached hcached, rfl⟩
  · exact fun code asset => published_of_getAnchorAssetInfo hlive
  · intro code low high h
    obtain ⟨asset, hasset, rfl, rfl⟩ := published_of_read_pair hlive h
    exact ⟨⟨asset, hasset, rfl, rfl⟩, hasset.sound.deposit_limits⟩
  · intro code low high h
    obtain ⟨asset, hasset, rfl, rfl⟩ := published_of_read_pair hlive h
    exact ⟨⟨asset, hasset, rfl, rfl⟩, hasset.sound.withdrawal_limits⟩
  · intro code fixed percent h
    obtain ⟨asset, hasset, rfl, rfl⟩ := published_of_read_pair hlive h
    exact ⟨⟨asset, hasset, rfl, rfl⟩, hasset.sound.deposit_fee⟩
  · intro code fixed percent h
    obtain ⟨asset, hasset, rfl, rfl⟩ := published_of_read_pair hlive h
    exact ⟨⟨asset, hasset, rfl, rfl⟩, hasset.sound.withdrawal_fee⟩
  · exact fun code enabled => published_of_read hlive
  · exact fun code enabled => published_of_read hlive
  · exact published_of_supportsSep31 hstored

end Reads

section Runs

variable (host : Host) (sha256 : Bytes → BytesN 32)

structure TomlsTold (past : List ContractState.Transition) (s : ContractState) : Prop where
  banded : PoliciesBanded s.core
  told : ∀ anchor, s.tomls.get anchor = lastSome (tomlWritten anchor) past
  written : ∀ t ∈ past, ∀ anchor cached, tomlWritten anchor t = some cached →
    WrittenSoundly anchor cached t

theorem tomlsTold_run (is : List ContractState.Input) :
    TomlsTold (ContractState.history host sha256 is) (ContractState.run host sha256 is) := by
  refine Machine.history_invariant (ContractState.step host sha256) TomlsTold (fun _ => True)
    ⟨policiesBanded_empty, fun _ => rfl, fun _ ht => by cases ht⟩ ?_ is fun _ _ => trivial
  intro past t ht hpre _
  refine ⟨banded_step ht hpre.banded, fun anchor => ?_, forall_mem_snoc.mpr ⟨hpre.written, ?_⟩⟩
  · rw [(toml_step ht hpre.banded anchor).1, hpre.told, lastSome_snoc]
  · exact fun anchor => (toml_step ht hpre.banded anchor).2

/-- What is served of an anchor after any run of the contract, at any time. -/
theorem discovery_run (is : List ContractState.Input) (env : Env) (anchor : Address) :
    DiscoveryServed env (ContractState.history host sha256 is)
      (ContractState.run host sha256 is).tomls anchor := by
  have htold := tomlsTold_run host sha256 is
  have hstored : ∀ cached, (ContractState.run host sha256 is).tomls.get anchor = some cached →
      env.timestamp.toNat < cached.cachedAt.toNat + cached.ttlSeconds.toNat →
      Published env (ContractState.history host sha256 is) anchor cached := by
    intro cached hget hlive
    rw [htold.told] at hget
    obtain ⟨t, ht, hwritten⟩ := exists_mem_of_lastSome hget
    exact ⟨hget, ⟨t, ht, hwritten, htold.written t ht anchor cached hwritten⟩, hlive⟩
  refine DiscoveryServed.of_live (fun cached h => ?_) hstored
  obtain ⟨hget, hlive⟩ := liveToml_eq_ok h
  exact hstored cached hget hlive

end Runs

end AnchorKit
