/-
  The reasons for which an operation of the yield manager is
  refused.  Each reason has a name, a number and a message;
  the numbers are consecutive from `Error.firstCode` in the
  order of the constructors.

  Key definitions include:
    * `Error`
    * `Error.all`
    * `Error.name`
    * `Error.code`
    * `Error.message`
-/

------------------------------------------------------------
-- Reasons
------------------------------------------------------------

namespace YieldManager

/- A reason to refuse an operation. -/
inductive Error where
  -- arithmetic and requests
  | mathOverflow
  | invalidRequest
  -- construction
  | zeroCustodian
  | zeroYieldVault
  | zeroToken
  | zeroRewardForwarder
  -- life cycle
  | alreadyInitialized
  | notInitialized
  | emptyPoolId
  | incorrectPoolId
  -- authority
  | onlyPool
  | onlyRebalancer
  | onlyAssetManager
  | onlyRelayerJoin
  | onlyRelayerExit
  | invalidDependency
  -- investment targets
  | upperCriticalTooHigh
  | targetAboveUpperCritical
  | lowerCriticalAboveTarget
  -- vault integrity
  | noSharesReceived
  | insufficientTokensReceived
  | noSharesBurned
  | vaultAssetMismatch
  -- relayer
  | relayerReentered
  -- ledgers
  | unsupportedToken
  | tokenAlreadyRegistered
  | assetManagerAlreadyRegistered
  | insufficientCash
  | insufficientManaged
  | insufficientShares
  | insufficientVaultLiquidity
  | capacityReached
  | invalidLedgerConfig
  | invalidFee
  | gaugeNotProvided
deriving DecidableEq, Repr

------------------------------------------------------------
-- Names, Numbers and Messages
------------------------------------------------------------

namespace Error

/- Every reason, in the order of its number. -/
def all : List Error :=
  [ .mathOverflow, .invalidRequest, .zeroCustodian,
    .zeroYieldVault, .zeroToken, .zeroRewardForwarder,
    .alreadyInitialized, .notInitialized, .emptyPoolId,
    .incorrectPoolId, .onlyPool, .onlyRebalancer,
    .onlyAssetManager, .onlyRelayerJoin, .onlyRelayerExit,
    .invalidDependency, .upperCriticalTooHigh,
    .targetAboveUpperCritical, .lowerCriticalAboveTarget,
    .noSharesReceived, .insufficientTokensReceived,
    .noSharesBurned, .vaultAssetMismatch,
    .relayerReentered, .unsupportedToken,
    .tokenAlreadyRegistered,
    .assetManagerAlreadyRegistered, .insufficientCash,
    .insufficientManaged, .insufficientShares,
    .insufficientVaultLiquidity, .capacityReached,
    .invalidLedgerConfig, .invalidFee, .gaugeNotProvided ]

/- The number of the first reason. -/
def firstCode : Nat := 6000

/- The number by which a caller recognises the reason. -/
def code (e : Error) : Nat :=
  firstCode + e.ctorIdx

/- The name of the reason. -/
def name : Error → String
  | .mathOverflow => "MathOverflow"
  | .invalidRequest => "InvalidRequest"
  | .zeroCustodian => "ZeroCustodian"
  | .zeroYieldVault => "ZeroYieldVault"
  | .zeroToken => "ZeroToken"
  | .zeroRewardForwarder => "ZeroRewardForwarder"
  | .alreadyInitialized => "AlreadyInitialized"
  | .notInitialized => "NotInitialized"
  | .emptyPoolId => "EmptyPoolId"
  | .incorrectPoolId => "IncorrectPoolId"
  | .onlyPool => "OnlyPool"
  | .onlyRebalancer => "OnlyRebalancer"
  | .onlyAssetManager => "OnlyAssetManager"
  | .onlyRelayerJoin => "OnlyRelayerJoin"
  | .onlyRelayerExit => "OnlyRelayerExit"
  | .invalidDependency => "InvalidDependency"
  | .upperCriticalTooHigh => "UpperCriticalTooHigh"
  | .targetAboveUpperCritical => "TargetAboveUpperCritical"
  | .lowerCriticalAboveTarget => "LowerCriticalAboveTarget"
  | .noSharesReceived => "NoSharesReceived"
  | .insufficientTokensReceived =>
      "InsufficientTokensReceived"
  | .noSharesBurned => "NoSharesBurned"
  | .vaultAssetMismatch => "VaultAssetMismatch"
  | .relayerReentered => "RelayerReentered"
  | .unsupportedToken => "UnsupportedToken"
  | .tokenAlreadyRegistered => "TokenAlreadyRegistered"
  | .assetManagerAlreadyRegistered =>
      "AssetManagerAlreadyRegistered"
  | .insufficientCash => "InsufficientCash"
  | .insufficientManaged => "InsufficientManaged"
  | .insufficientShares => "InsufficientShares"
  | .insufficientVaultLiquidity =>
      "InsufficientVaultLiquidity"
  | .capacityReached => "CapacityReached"
  | .invalidLedgerConfig => "InvalidLedgerConfig"
  | .invalidFee => "InvalidFee"
  | .gaugeNotProvided => "GaugeNotProvided"

/- The sentence shown to a caller. -/
def message : Error → String
  | .mathOverflow => "Overflow in arithmetic operation"
  | .invalidRequest => "Invalid request"
  | .zeroCustodian => "zero custodian"
  | .zeroYieldVault => "zero ERC4626 vault"
  | .zeroToken => "zero token"
  | .zeroRewardForwarder => "zero reward forwarder"
  | .alreadyInitialized => "Already initialised"
  | .notInitialized => "Asset manager is not initialised"
  | .emptyPoolId => "Pool id cannot be empty"
  | .incorrectPoolId =>
      "AssetManager called with incorrect poolId"
  | .onlyPool => "Only callable by pool"
  | .onlyRebalancer =>
      "Only callable by authorized rebalancer"
  | .onlyAssetManager =>
      "Only callable by the registered asset manager"
  | .onlyRelayerJoin => "Only relayer can join pool"
  | .onlyRelayerExit => "Only relayer can exit pool"
  | .invalidDependency =>
      "Account does not match the asset manager configuration"
  | .upperCriticalTooHigh =>
      "Upper critical level must be less than or equal to 100%"
  | .targetAboveUpperCritical =>
      "Target must be less than or equal to upper critical level"
  | .lowerCriticalAboveTarget =>
      "Lower critical level must be less than or equal to target"
  | .noSharesReceived =>
      "AM should receive shares after the deposit"
  | .insufficientTokensReceived =>
      "AM should receive requested tokens after the withdraw"
  | .noSharesBurned => "AM should burn shares on the withdraw"
  | .vaultAssetMismatch =>
      "Vault asset does not match the managed token"
  | .relayerReentered => "Rebalancing relayer reentered"
  | .unsupportedToken => "Token is not supported"
  | .tokenAlreadyRegistered => "Token is already registered"
  | .assetManagerAlreadyRegistered =>
      "Token already has a different asset manager"
  | .insufficientCash => "Insufficient cash balance"
  | .insufficientManaged => "Insufficient managed balance"
  | .insufficientShares => "Insufficient vault shares"
  | .insufficientVaultLiquidity =>
      "Insufficient vault liquidity"
  | .capacityReached => "Ledger capacity reached"
  | .invalidLedgerConfig => "Invalid ledger configuration"
  | .invalidFee => "Invalid fee configuration"
  | .gaugeNotProvided => "Gauge account was not provided"

/- Numbers count up from the first one along `all`. -/
theorem map_code_all :
    all.map code =
      (List.range 35).map (firstCode + ·) := by
  decide

/- Every reason is listed. -/
theorem mem_all (e : Error) : e ∈ all := by
  cases e <;> decide

end Error

end YieldManager
