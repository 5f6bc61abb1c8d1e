import EvalOrder.Main
import EvalOrder.Proofs.Losses
import EvalOrder.Proofs.Prefixes
import EvalOrder.Proofs.Selections
import EvalOrder.Proofs.Reordering
import EvalOrder.Proofs.Places
import EvalOrder.Proofs.Descent
import EvalOrder.Proofs.Spelling
import EvalOrder.Proofs.Arena
import EvalOrder.Proofs.Endings
import EvalOrder.Proofs.Checking
import EvalOrder.Proofs.Precedence
import EvalOrder.Proofs.Division
import EvalOrder.Proofs.Isolation
import EvalOrder.Proofs.Calling
import EvalOrder.Proofs.SettingsCheck
import EvalOrder.Proofs.LoopHead
