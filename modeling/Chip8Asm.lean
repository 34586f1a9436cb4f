import Chip8Asm.Main
import Chip8Asm.Proofs.BodyLines
import Chip8Asm.Proofs.Image
import Chip8Asm.Proofs.Stopping
import Chip8Asm.Proofs.NormalForm
import Chip8Asm.Proofs.DigitLimit
import Chip8Asm.Proofs.FreshLabel
import Chip8Asm.Proofs.LabelTable
import Chip8Asm.Proofs.AliasElimination
import Chip8Asm.Proofs.Decodability
import Chip8Asm.Proofs.Records
import Chip8Asm.Proofs.AddressOrder
import Chip8Asm.Proofs.SimilarNames
import Chip8Asm.Proofs.SessionHistory
import Chip8Asm.Proofs.LetterCase
import Chip8Asm.Proofs.OrphanLines
import Chip8Asm.Proofs.EntryPosition
import Chip8Asm.Proofs.Renaming
import Chip8Asm.Proofs.BlankLines
import Chip8Asm.Proofs.Offences
import Chip8Asm.Proofs.ExitStatus
import Chip8Asm.Proofs.ListingOutputs
import Chip8Asm.Proofs.FixedWidth
import Chip8Asm.Proofs.LabelReferences
import Chip8Asm.Proofs.InstructionErrors
import Chip8Asm.Proofs.CanonicalForm
import Chip8Asm.Proofs.UnknownLabels
import Chip8Asm.Proofs.ListingLines
import Chip8Asm.Proofs.SymbolFile
import Chip8Asm.Proofs.RegisterNames
import Chip8Asm.Proofs.Markings
