import SpiBridge.Log.Syslog
import SpiBridge.Main
import SpiBridge.Proofs.Alignment
import SpiBridge.Proofs.MasterDelivery
import SpiBridge.Proofs.Containment
import SpiBridge.Proofs.Conversation
import SpiBridge.Proofs.HostOutput
import SpiBridge.Proofs.Isolation
import SpiBridge.Proofs.Requests
import SpiBridge.Proofs.WrittenForm
import SpiBridge.Proofs.SyncForm
import SpiBridge.Proofs.CommandForm
import SpiBridge.Proofs.SyncWriting
import SpiBridge.Proofs.Serials
import SpiBridge.Proofs.Queue
import SpiBridge.Proofs.Waiting
import SpiBridge.Proofs.Deadline
import SpiBridge.Proofs.Rooms
import SpiBridge.Proofs.Accounts
import SpiBridge.Proofs.Strewn
import SpiBridge.Proofs.Interruptions
import SpiBridge.Proofs.Patience
import SpiBridge.Proofs.WaitTime
import SpiBridge.Proofs.Settings
import SpiBridge.Proofs.ClockRange
import SpiBridge.Proofs.DurationForm
import SpiBridge.Proofs.Messages
import SpiBridge.Proofs.PipeSetup
import SpiBridge.Proofs.Fetching
import SpiBridge.Proofs.Sampling
