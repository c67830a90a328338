import ScriptMachine.Script
import ScriptMachine.Proofs.Arithmetic.Order
import ScriptMachine.Proofs.Memory.Freeing
import ScriptMachine.Proofs.Memory.Refinement
import ScriptMachine.Proofs.Memory.Refusals
import ScriptMachine.Proofs.Table.Separation
import ScriptMachine.Proofs.Heap.Handles
import ScriptMachine.Proofs.Heap.Sequences
import ScriptMachine.Proofs.Heap.Trace
import ScriptMachine.Proofs.Container.Loads
import ScriptMachine.Proofs.Machine.Isolation
import ScriptMachine.Proofs.Machine.Iteration
import ScriptMachine.Proofs.Machine.Pool
import ScriptMachine.Proofs.Machine.Recovery
import ScriptMachine.Proofs.Machine.Reservations
import ScriptMachine.Proofs.Machine.Traces
import ScriptMachine.Proofs.Simulation.Transparency
