import YieldManager.Proofs.Program.Effects
import YieldManager.Proofs.Program.Preservation

/-
  Runs of the program.  A call that succeeds makes the changes
  of its instruction and a call that fails makes none, so a
  run is a sequence of changes; its flow is what the calls
  that succeed join, less what they exit.

  Main declarations:
    * `Program.execute_eq_ok_iff`
    * `Program.joined`
    * `Program.exited`
    * `Program.changes_of_step`
    * `Program.changes_of_run`
    * `Program.isWired_of_run`
    * `Program.smallStore`
    * `Program.smallCalls`
    * `Program.smallManager`
-/

------------------------------------------------------------
-- Calls
------------------------------------------------------------

namespace YieldManager

namespace Program

/- A call succeeds under the program's address only. -/
theorem execute_eq_ok_iff
    {s t : Store}
    {call : Call}
    {receipt : Receipt} :
    execute s call = .ok (receipt, t) ↔
      call.programId = Address.program ∧
        ∃ effect,
          call.instruction.effect s call.metas =
              .ok effect ∧
            effect.receipt = receipt ∧
            s.insertAll effect.writes = t := by
  unfold execute expectProgram
  by_cases hProgram : call.programId = Address.program
  · simp [hProgram]
  · simp [hProgram]

/- What a call pays into pools, if it succeeds. -/
def joinedBy
    (mint : Address)
    (s : Store)
    (call : Call) : Nat :=
  match execute s call with
  | .ok _ => call.instruction.joined mint
  | .error _ => 0

/- What a call pays out of pools, if it succeeds. -/
def exitedBy
    (mint : Address)
    (s : Store)
    (call : Call) : Nat :=
  match execute s call with
  | .ok _ => call.instruction.exited mint
  | .error _ => 0

/- A call makes changes of its flow, or none. -/
theorem changes_of_step
    {s : Store}
    (hPlain : s.IsPlain)
    (call : Call) :
    Changes (Meta.Signs call.metas)
      (fun mint =>
        (joinedBy mint s call : Int) - exitedBy mint s call)
      s (step s call) := by
  unfold joinedBy exitedBy step
  cases hRun : execute s call with
  | error fault => exact .refl s
  | ok result =>
      rcases result with ⟨receipt, after⟩
      rcases execute_eq_ok_iff.mp hRun with
        ⟨-, effect, hEffect, -, rfl⟩
      exact Instruction.changes_of_effect hPlain hEffect

------------------------------------------------------------
-- Runs
------------------------------------------------------------

/- What a run pays into pools, by its calls that succeed. -/
def joined
    (mint : Address) : Store → List Call → Nat
  | _, [] => 0
  | s, call :: calls =>
      joinedBy mint s call + joined mint (step s call) calls

/- What a run pays out of pools, by its calls that succeed. -/
def exited
    (mint : Address) : Store → List Call → Nat
  | _, [] => 0
  | s, call :: calls =>
      exitedBy mint s call + exited mint (step s call) calls

/- A key has signed if it signs one of some calls. -/
def SignedBy
    (calls : List Call)
    (key : Address) : Prop :=
  ∃ call ∈ calls, Meta.Signs call.metas key

/- A run makes changes, and its flow is that of its calls. -/
theorem changes_of_run
    {s : Store}
    (hPlain : s.IsPlain)
    (calls : List Call) :
    Changes (SignedBy calls)
      (fun mint =>
        (joined mint s calls : Int) - exited mint s calls)
      s (run s calls) := by
  induction calls generalizing s with
  | nil => exact .refl s
  | cons call calls ih =>
      have hStep := changes_of_step hPlain call
      have hRest := ih (hStep.isPlain hPlain)
      refine
        (hStep.mono fun key hSigns =>
            ⟨call, List.mem_cons_self, hSigns⟩).trans
          (hRest.mono ?_) ?_
      · intro key hSigned
        rcases hSigned with ⟨other, hLater, hSigns⟩
        exact
          ⟨other, List.mem_cons_of_mem call hLater, hSigns⟩
      intro mint
      simp only [joined, exited]
      omega

/- A run leaves a store wired. -/
theorem isWired_of_run
    {s : Store}
    (hWired : s.IsWired)
    (calls : List Call) :
    (run s calls).IsWired :=
  (changes_of_run hWired.plain calls).isWired hWired

------------------------------------------------------------
-- A Small Run
------------------------------------------------------------

/- The raw key of 32 equal bytes. -/
def smallKey (byte : UInt8) : Address :=
  .raw
    { toBytes := List.replicate 32 byte
      length_toBytes := List.length_replicate }

/- A store with nothing but a mint. -/
def smallStore : Store where
  accounts :=
    [(smallKey 1,
      .bytes Address.tokenProgram (Mint.toBytes true))]
  nodup := List.nodup_singleton _

/- The accounts of a pool for the mint of the store. -/
def smallTerms : Terms Address where
  poolId := smallKey 2
  token := smallKey 1
  custodian := .ofLedger (smallKey 2)
  vault := .ofShareVault (smallKey 3) (smallKey 1)
  forwarder := .ofForwarder (smallKey 3)
  gauge := none

/- A call that the authority of the pool signs. -/
def smallCall
    (instruction : Instruction Address)
    (keys : List Address) : Call where
  programId := Address.program
  metas := (smallKey 3 :: keys).map fun key =>
    { key := key, signer := key = smallKey 3,
      writable := true }
  instruction := instruction

/-
  A pool and its manager are set up, with half of the pool to
  be invested; then the pool is joined, forced to rebalance,
  and exited for more than its cash.
-/
def smallCalls : List Call :=
  let pool := smallTerms.poolId
  let mint := smallTerms.token
  let ledger := smallTerms.custodian
  let vault := smallTerms.vault
  let manager := Address.ofManager pool mint
  let relayer := Address.ofRelayer pool
  [ smallCall (.createLedger pool) [ledger, .system],
    smallCall .registerToken [ledger, mint],
    smallCall (.createShareVault 100)
      [mint, vault, .system],
    smallCall (.createManager smallTerms)
      [ledger, vault, manager, .system],
    smallCall (.activate pool) [manager, ledger],
    smallCall
      (.setTargets pool
        { target := 500000000000000000
          upper := 500000000000000000
          lower := 0 })
      [manager],
    smallCall (.createRelayer pool)
      [ledger, relayer, .system],
    smallCall
      (.joinPool pool mint
        { assets := [mint], maxAmounts := [1000] })
      [relayer, ledger, manager, vault],
    smallCall (.rebalance pool true)
      [manager, ledger, vault],
    smallCall
      (.exitPool pool mint
        { assets := [mint, mint], minAmounts := [400, 200] })
      [relayer, ledger, manager, vault] ]

/- The manager of the small run, with its targets set. -/
def smallManager : Manager Address where
  poolId := smallTerms.poolId
  token := smallTerms.token
  custodian := smallTerms.custodian
  vault := smallTerms.vault
  forwarder := smallTerms.forwarder
  gauge := none
  rebalancer := .ofRelayer smallTerms.poolId
  authority := smallKey 3
  targets :=
    { target := 500000000000000000
      upper := 500000000000000000
      lower := 0 }
  live := true
  bump := Address.bump

/- The program has no account in the small store. -/
theorem owner_of_smallStore
    (key : Address)
    (account : Account)
    (hFound : smallStore.find? key = some account) :
    account.owner ≠ Address.program := by
  have hMem := Store.mem_of_find? hFound
  simp only [smallStore, List.mem_singleton, Prod.mk.injEq]
    at hMem
  rw [hMem.2]
  decide

end Program

end YieldManager
