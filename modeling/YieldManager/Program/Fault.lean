import YieldManager.Error
import YieldManager.Wire.Account

/-
  The reasons for which the program refuses an instruction:
  a rule of the yield manager, a check on the accounts or on
  the instruction itself, or an answer of another program.

  Key definitions include:
    * `Refusal`
    * `Refusal.name`
    * `Refusal.code?`
    * `Refusal.message`
    * `Fault`
-/

------------------------------------------------------------
-- Refusals
------------------------------------------------------------

namespace YieldManager

/- Why an instruction is refused. -/
inductive Refusal where
  -- a rule of the yield manager
  | rule (error : Error)
  -- the instruction
  | unknownInstruction
  | badArguments
  | eventCall
  | otherProgram
  -- constraints on accounts
  | notWritable
  | wrongAddress
  | payerIsTarget
  -- loading of accounts
  | noTag
  | otherTag
  | badRecord
  | outOfSpace
  | missingAccount
  | foreignOwner
  | notSystemProgram
  | notSigned
  | notOpened
  -- answers of other programs
  | addressTaken
  | mintNotReady
  | badMint
deriving DecidableEq, Repr

namespace Refusal

/- The name of a refusal. -/
def name : Refusal → String
  | .rule error => error.name
  | .unknownInstruction => "InstructionFallbackNotFound"
  | .badArguments => "InstructionDidNotDeserialize"
  | .eventCall => "EventInstructionStub"
  | .otherProgram => "DeclaredProgramIdMismatch"
  | .notWritable => "ConstraintMut"
  | .wrongAddress => "ConstraintSeeds"
  | .payerIsTarget => "TryingToInitPayerAsProgramAccount"
  | .noTag => "AccountDiscriminatorNotFound"
  | .otherTag => "AccountDiscriminatorMismatch"
  | .badRecord => "AccountDidNotDeserialize"
  | .outOfSpace => "AccountDidNotSerialize"
  | .missingAccount => "AccountNotEnoughKeys"
  | .foreignOwner => "AccountOwnedByWrongProgram"
  | .notSystemProgram => "InvalidProgramId"
  | .notSigned => "AccountNotSigner"
  | .notOpened => "AccountNotInitialized"
  | .addressTaken => "Custom(0)"
  | .mintNotReady => "UninitializedAccount"
  | .badMint => "InvalidAccountData"

/-
  The number of a refusal.  Answers of other programs have
  none of their own.
-/
def code? : Refusal → Option Nat
  | .rule error => some error.code
  | .unknownInstruction => some 101
  | .badArguments => some 102
  | .eventCall => some 1500
  | .notWritable => some 2000
  | .wrongAddress => some 2006
  | .noTag => some 3001
  | .otherTag => some 3002
  | .badRecord => some 3003
  | .outOfSpace => some 3004
  | .missingAccount => some 3005
  | .foreignOwner => some 3007
  | .notSystemProgram => some 3008
  | .notSigned => some 3010
  | .notOpened => some 3012
  | .otherProgram => some 4100
  | .payerIsTarget => some 4101
  | .addressTaken => none
  | .mintNotReady => none
  | .badMint => none

/- The sentence shown to a caller. -/
def message : Refusal → String
  | .rule error => error.message
  | .unknownInstruction =>
      "Fallback functions are not supported"
  | .badArguments =>
      "The program could not deserialize the given instruction"
  | .eventCall =>
      "The program was compiled without `event-cpi` feature"
  | .otherProgram =>
      "The declared program id does not match the actual " ++
        "program id"
  | .notWritable => "A mut constraint was violated"
  | .wrongAddress => "A seeds constraint was violated"
  | .payerIsTarget =>
      "You cannot/should not initialize the payer account " ++
        "as a program account"
  | .noTag => "No discriminator was found on the account"
  | .otherTag =>
      "Account discriminator did not match what was expected"
  | .badRecord => "Failed to deserialize the account"
  | .outOfSpace => "Failed to serialize the account"
  | .missingAccount =>
      "Not enough account keys given to the instruction"
  | .foreignOwner =>
      "The given account is owned by a different program " ++
        "than expected"
  | .notSystemProgram => "Program ID was not as expected"
  | .notSigned => "The given account did not sign"
  | .notOpened =>
      "The program expected this account to be already " ++
        "initialized"
  | .addressTaken => "Custom program error: 0x0"
  | .mintNotReady =>
      "An attempt to operate on an account that hasn't " ++
        "been initialized"
  | .badMint => "An account's data contents was invalid"

/- Account bytes of the program that are not read. -/
def ofUnreadable : Unreadable → Refusal
  | .noTag => .noTag
  | .otherTag => .otherTag
  | .badRecord => .badRecord

end Refusal

------------------------------------------------------------
-- Faults
------------------------------------------------------------

/-
  A refusal, with the account of the instruction to which it
  is due, if it came from loading or checking one.
-/
structure Fault where
  refusal : Refusal
  account : Option String
deriving DecidableEq, Repr

namespace Fault

/- A refusal that is due to an account. -/
def due
    (refusal : Refusal)
    (account : String) : Fault where
  refusal := refusal
  account := some account

/- A refusal that is not due to one account. -/
def general (refusal : Refusal) : Fault where
  refusal := refusal
  account := none

/- Refuse for a rule of the yield manager. -/
def ofRule {α : Type} : Except Error α → Except Fault α
  | .ok x => .ok x
  | .error e => .error (.general (.rule e))

end Fault

end YieldManager
