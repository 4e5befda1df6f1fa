import ServerGroups.Scenario.Run
import ServerGroups.Wire.Command
import ServerGroups.Wire.Config
import ServerGroups.Proofs.Membership
import ServerGroups.Proofs.DefaultGroup
import ServerGroups.Proofs.Confinement
import ServerGroups.Proofs.Drains.Termination
import ServerGroups.Proofs.Drains.Settled
import ServerGroups.Proofs.Drains.Frame
import ServerGroups.Proofs.Drains.Order
import ServerGroups.Proofs.Moves.Admission
import ServerGroups.Proofs.Moves.Atomicity
import ServerGroups.Proofs.Moves.Tables
import ServerGroups.Proofs.Retries.Servers
import ServerGroups.Proofs.Retries.Tables
import ServerGroups.Proofs.Exclusion
import ServerGroups.Proofs.Drains.Exits
import ServerGroups.Proofs.Refusals
import ServerGroups.Proofs.Balance
import ServerGroups.Proofs.Balance.Tables
import ServerGroups.Proofs.Balance.Answers
import ServerGroups.Proofs.Balance.Shortest
import ServerGroups.Proofs.Wire
import ServerGroups.Proofs.Failures
import ServerGroups.Proofs.Hooks
import ServerGroups.Proofs.Ownership
import ServerGroups.Proofs.Regions
import ServerGroups.Proofs.Reservations
import ServerGroups.Proofs.Removal
import ServerGroups.Proofs.Waits
import ServerGroups.Proofs.Names
import ServerGroups.Proofs.Placement
