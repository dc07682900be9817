import ForwardIndex.IndexFile
import ForwardIndex.Main
import ForwardIndex.Proofs.ClosedFile
import ForwardIndex.Proofs.ColumnBuild
import ForwardIndex.Proofs.DroppedWriter
import ForwardIndex.Proofs.RejectedBuild
import ForwardIndex.Proofs.Release
import ForwardIndex.Proofs.Encoder
import ForwardIndex.Proofs.ExactRun
import ForwardIndex.Proofs.QuietWriter
import ForwardIndex.Proofs.Representation
import ForwardIndex.Proofs.TaskOrder
import ForwardIndex.Proofs.OffsetTable
import ForwardIndex.Proofs.IntegerLines
import ForwardIndex.Proofs.Unheaded
import ForwardIndex.Proofs.Retries
import ForwardIndex.Proofs.Acceptance
import ForwardIndex.Proofs.ChunkSize
import ForwardIndex.Proofs.IntegerOption
import ForwardIndex.Proofs.FailedBuild
import ForwardIndex.Proofs.ChunkRoom
import ForwardIndex.Proofs.CodecRoom
import ForwardIndex.Proofs.FailedOpens
import ForwardIndex.Proofs.ColumnLines
import ForwardIndex.Proofs.LargestCount
import ForwardIndex.Proofs.SourceGrammar
import ForwardIndex.Proofs.CommandWords
import ForwardIndex.Proofs.TextRoundTrip
import ForwardIndex.Proofs.BufferCalls
import ForwardIndex.Proofs.PartialWrites
import ForwardIndex.Proofs.Ownership
import ForwardIndex.Proofs.SizeNumerals
