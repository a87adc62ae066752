import AnchorKit.Cache
import AnchorKit.Quotes

/-!
# Discovery of anchors

An anchor keeps the contents of its `stellar.toml` in a cache, with the limits and fees of its
assets, which are validated when they are written.
-/

namespace AnchorKit
namespace AnchorInfo

open Fallible

structure AssetInfo where
  code : String
  issuer : String
  depositEnabled : Bool
  withdrawalEnabled : Bool
  depositFeeFixed : UInt64
  depositFeePercent : UInt32
  withdrawalFeeFixed : UInt64
  withdrawalFeePercent : UInt32
  depositMinAmount : UInt64
  depositMaxAmount : UInt64
  withdrawalMinAmount : UInt64
  withdrawalMaxAmount : UInt64
deriving DecidableEq, Repr

structure StellarToml where
  version : String
  networkPassphrase : String
  accounts : List String
  signingKey : String
  currencies : List AssetInfo
  transferServer : String
  transferServerSep0024 : String
  kycServer : String
  webAuthEndpoint : String
  directPaymentServer : String
deriving DecidableEq, Repr

structure CachedToml where
  toml : StellarToml
  cachedAt : UInt64
  ttlSeconds : UInt64
  sourceUri : String
  lastRefreshedAt : UInt64
deriving DecidableEq, Repr

structure AnchorTomlProvenance where
  anchor : Address
  sourceUri : String
  cachedAt : UInt64
  lastRefreshedAt : UInt64
  ttlSeconds : UInt64
  ageSeconds : UInt64
deriving DecidableEq, Repr

abbrev TomlStore := KeyedStore Address CachedToml

def validateAssetInfo (asset : AssetInfo) : Except Panic Unit := do
  validateCurrencyCode asset.code
  validateFeePercent asset.depositFeePercent
  validateFeePercent asset.withdrawalFeePercent
  validateAmountLimits asset.depositMinAmount asset.depositMaxAmount
  validateAmountLimits asset.withdrawalMinAmount asset.withdrawalMaxAmount

def fetchAnchorInfo (env : Env) (s : Storage) (tomls : TomlStore) (anchor : Address)
    (tomlData : StellarToml) (ttlSeconds : UInt64) (sourceUri : String) :
    Except Panic TomlStore := do
  anchor.requireAuth env
  tomlData.currencies.forM validateAssetInfo
  let now := env.timestamp
  let cfg := getCacheConfigInternal s
  let baseTtl := effectiveTtl ttlSeconds cfg.capabilitiesTtlSeconds
  let (ttl, _) := CacheGovernance.enforceWritePolicy s .capabilities baseTtl 0
  return tomls.set anchor
    { toml := tomlData, cachedAt := now, ttlSeconds := ttl, sourceUri, lastRefreshedAt := now }

/-- The inner write asks for the anchor's authorization once more. -/
def refreshAnchorInfo (env : Env) (s : Storage) (tomls : TomlStore) (anchor : Address)
    (tomlData : StellarToml) (ttlSeconds : UInt64) (sourceUri : String) :
    Except Panic (Storage × TomlStore) := do
  anchor.requireAuth env
  let hadCachedEntry := tomls.has anchor
  let tomls ← fetchAnchorInfo (env.spend anchor) s tomls anchor tomlData ttlSeconds sourceUri
  return (recordRefreshDiagnostic env s anchor "anchor_info" .success hadCachedEntry
    "anchor info cache refreshed successfully", tomls)

/-- The entry of an anchor, as long as it has not expired. -/
def liveToml (env : Env) (tomls : TomlStore) (anchor : Address) : Except Panic CachedToml := do
  let cached ← expect (tomls.get anchor) (.withError .cacheNotFound)
  let expiresAt ← add64 cached.cachedAt cached.ttlSeconds
  require (env.timestamp < expiresAt) (.withError .cacheExpired)
  return cached

def getAnchorToml (env : Env) (tomls : TomlStore) (anchor : Address) :
    Except Panic StellarToml := do
  let cached ← liveToml env tomls anchor
  return cached.toml

def getAnchorTomlProvenance (env : Env) (tomls : TomlStore) (anchor : Address) :
    Except Panic AnchorTomlProvenance := do
  let cached ← liveToml env tomls anchor
  return { anchor, sourceUri := cached.sourceUri, cachedAt := cached.cachedAt,
           lastRefreshedAt := cached.lastRefreshedAt, ttlSeconds := cached.ttlSeconds,
           ageSeconds := Word.saturatingSub64 env.timestamp cached.cachedAt }

def getAnchorAssets (env : Env) (tomls : TomlStore) (anchor : Address) :
    Except Panic (List String) := do
  let toml ← getAnchorToml env tomls anchor
  return toml.currencies.map AssetInfo.code

/-- The first of the anchor's assets with the code. -/
def getAnchorAssetInfo (env : Env) (tomls : TomlStore) (anchor : Address) (assetCode : String) :
    Except Panic AssetInfo := do
  let toml ← getAnchorToml env tomls anchor
  expect (toml.currencies.find? fun asset => asset.code = assetCode) (.withError .validationError)

def getAnchorDepositLimits (env : Env) (tomls : TomlStore) (anchor : Address)
    (assetCode : String) : Except Panic (UInt64 × UInt64) := do
  let asset ← getAnchorAssetInfo env tomls anchor assetCode
  return (asset.depositMinAmount, asset.depositMaxAmount)

def getAnchorWithdrawalLimits (env : Env) (tomls : TomlStore) (anchor : Address)
    (assetCode : String) : Except Panic (UInt64 × UInt64) := do
  let asset ← getAnchorAssetInfo env tomls anchor assetCode
  return (asset.withdrawalMinAmount, asset.withdrawalMaxAmount)

def getAnchorDepositFees (env : Env) (tomls : TomlStore) (anchor : Address)
    (assetCode : String) : Except Panic (UInt64 × UInt32) := do
  let asset ← getAnchorAssetInfo env tomls anchor assetCode
  return (asset.depositFeeFixed, asset.depositFeePercent)

def getAnchorWithdrawalFees (env : Env) (tomls : TomlStore) (anchor : Address)
    (assetCode : String) : Except Panic (UInt64 × UInt32) := do
  let asset ← getAnchorAssetInfo env tomls anchor assetCode
  return (asset.withdrawalFeeFixed, asset.withdrawalFeePercent)

def anchorSupportsDeposits (env : Env) (tomls : TomlStore) (anchor : Address)
    (assetCode : String) : Except Panic Bool := do
  let asset ← getAnchorAssetInfo env tomls anchor assetCode
  return asset.depositEnabled

def anchorSupportsWithdrawals (env : Env) (tomls : TomlStore) (anchor : Address)
    (assetCode : String) : Except Panic Bool := do
  let asset ← getAnchorAssetInfo env tomls anchor assetCode
  return asset.withdrawalEnabled

def supportsSep31 (env : Env) (tomls : TomlStore) (anchor : Address) : Except Panic Bool :=
  match tomls.get anchor with
  | none => .ok false
  | some cached => do
    let expiresAt ← add64 cached.cachedAt cached.ttlSeconds
    return decide (env.timestamp < expiresAt) && decide (cached.toml.directPaymentServer ≠ "")

end AnchorInfo
end AnchorKit
