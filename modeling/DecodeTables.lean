import DecodeTables.Description.Edit
import DecodeTables.Main
import DecodeTables.Proofs.Coverage
import DecodeTables.Proofs.Description
import DecodeTables.Proofs.Disassembly
import DecodeTables.Proofs.Emitted.DispatchRun
import DecodeTables.Proofs.Emitted.Faithful
import DecodeTables.Proofs.Emitted.Items
import DecodeTables.Proofs.Emitted.LookupRun
import DecodeTables.Proofs.FirstDefect
import DecodeTables.Proofs.FirstRepeat
import DecodeTables.Proofs.Hexadecimal
import DecodeTables.Proofs.Locality
import DecodeTables.Proofs.Nesting
import DecodeTables.Proofs.Ordinals
import DecodeTables.Proofs.OverlapWord
import DecodeTables.Proofs.Placement
import DecodeTables.Proofs.Reordering
import DecodeTables.Proofs.SelfCheck
import DecodeTables.Proofs.SharedSlots
import DecodeTables.Proofs.Sorting
import DecodeTables.Proofs.Spelling
import DecodeTables.Proofs.Validation
import DecodeTables.Proofs.Writing
import DecodeTables.Storage.FileTree
