import ChoiceLang.Main
import ChoiceLang.Session
import ChoiceLang.Choice.Written
import ChoiceLang.Proofs.Spelling
import ChoiceLang.Proofs.Levels
import ChoiceLang.Proofs.Resolution
import ChoiceLang.Proofs.Recall
import ChoiceLang.Proofs.Relaxation
import ChoiceLang.Proofs.Commands
import ChoiceLang.Proofs.Lines
import ChoiceLang.Proofs.Reprinting
import ChoiceLang.Proofs.Documents
import ChoiceLang.Proofs.WrittenJson
import ChoiceLang.Proofs.Registration
import ChoiceLang.Proofs.StoredConfig
import ChoiceLang.Proofs.Nesting
import ChoiceLang.Proofs.Bodies
import ChoiceLang.Proofs.Alternatives
import ChoiceLang.Proofs.Defects
import ChoiceLang.Proofs.Reasons
import ChoiceLang.Proofs.Splitting
import ChoiceLang.Proofs.Validation
import ChoiceLang.Proofs.Registry
import ChoiceLang.Proofs.TreeJson
import ChoiceLang.Proofs.Numbering
import ChoiceLang.Proofs.Entries
import ChoiceLang.Proofs.Listings
import ChoiceLang.Proofs.Declarations
import ChoiceLang.Proofs.Records
import ChoiceLang.Proofs.ConfigTexts
import ChoiceLang.Proofs.Directory
import ChoiceLang.Proofs.Offsets
import ChoiceLang.Proofs.Recording
