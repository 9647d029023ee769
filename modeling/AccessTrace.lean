import AccessTrace.Entry.Lemmas
import AccessTrace.Main
import AccessTrace.Session.Script
import AccessTrace.Proofs.Regions
import AccessTrace.Proofs.Slots
import AccessTrace.Proofs.Operations
import AccessTrace.Proofs.PlanExecution
import AccessTrace.Proofs.Registration
import AccessTrace.Proofs.Faithful
import AccessTrace.Proofs.Reuse
import AccessTrace.Proofs.Accounting
import AccessTrace.Proofs.ShortWrites
import AccessTrace.Proofs.Messages
import AccessTrace.Proofs.Codec
import AccessTrace.Proofs.Grammar
import AccessTrace.Proofs.Sizing
import AccessTrace.Proofs.Schedules
import AccessTrace.Proofs.Clobbering
import AccessTrace.Proofs.Attempts
import AccessTrace.Proofs.Failures
import AccessTrace.Proofs.PipeNames
import AccessTrace.Proofs.Interleavings
import AccessTrace.Proofs.Impostors
import AccessTrace.Proofs.Strandings
import AccessTrace.Proofs.OptionTexts
import AccessTrace.Proofs.Chunks
import AccessTrace.Proofs.Starts
import AccessTrace.Proofs.Tidiness
import AccessTrace.Proofs.Fillings
import AccessTrace.Proofs.Wire
import AccessTrace.Proofs.Summaries
import AccessTrace.Proofs.Bounds
import AccessTrace.Proofs.Quotation
import AccessTrace.Proofs.Counters
import AccessTrace.Proofs.Interspersed
import AccessTrace.Proofs.MessageSchedules
