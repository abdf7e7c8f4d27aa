import Delimited.Assembler.Observing
import Delimited.Buffer.History
import Delimited.Buffer.Lemmas
import Delimited.Proofs.Allowance
import Delimited.Proofs.Configuration
import Delimited.Proofs.Continuation
import Delimited.Proofs.Delivery
import Delimited.Proofs.Extending
import Delimited.Proofs.Failure
import Delimited.Proofs.FrontField
import Delimited.Proofs.Independence
import Delimited.Proofs.Interchange
import Delimited.Proofs.LineBreaks
import Delimited.Proofs.Noting
import Delimited.Proofs.Protocol
import Delimited.Proofs.Records
import Delimited.Proofs.Releasing
import Delimited.Proofs.Remembering
import Delimited.Proofs.Renaming
import Delimited.Proofs.Reserving
import Delimited.Proofs.SafeQuoting
import Delimited.Proofs.SkippedLines
import Delimited.Proofs.Tables
import Delimited.Proofs.Termination
import Delimited.Proofs.WrittenHeader
import Delimited.Reader.Describe
import Delimited.Reader.Memory
import Delimited.Scan.Steps
import Delimited.Source.Contents
import Delimited.Source.Mixed
import Delimited.Table
