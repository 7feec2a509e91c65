import Retrieval.Chunk.Asked
import Retrieval.Delay
import Retrieval.Http.App
import Retrieval.Proofs.Chunk.Bound
import Retrieval.Proofs.Chunk.Layout
import Retrieval.Proofs.Chunk.Lossless
import Retrieval.Proofs.Chunk.Units
import Retrieval.Registry
import Retrieval.Scenario.Record
import Retrieval.Tokenizer.BytePair
import Retrieval.Proofs.Embedding.Attempts
import Retrieval.Proofs.Embedding.Exchange
import Retrieval.Proofs.Embedding.Alignment
import Retrieval.Proofs.Search.Ranking
import Retrieval.Proofs.Embedding.Faults
import Retrieval.Proofs.Service.Phases
import Retrieval.Proofs.Service.Coherence
import Retrieval.Proofs.Service.Executions
import Retrieval.Proofs.Service.Consistency
import Retrieval.Proofs.Service.Deletion
import Retrieval.Proofs.Chunk.Padding
import Retrieval.Proofs.Chunk.Watching
import Retrieval.Proofs.Store.Wording
import Retrieval.Proofs.Ingestion.Failures
import Retrieval.Proofs.Ingestion.Written
import Retrieval.Proofs.Text.Paired
import Retrieval.Proofs.Text.Decoding
import Retrieval.Proofs.Chunk.Boundaries
import Retrieval.Proofs.Embedding.Cancellation
import Retrieval.Proofs.Embedding.Reports
import Retrieval.Proofs.Value.Members
import Retrieval.Proofs.Schema.Checks
import Retrieval.Proofs.Config.Settings
import Retrieval.Proofs.Text.Utf8
import Retrieval.Proofs.Value.Reading
import Retrieval.Proofs.Http.Uploads
import Retrieval.Proofs.Chunk.Measured
import Retrieval.Proofs.Ingestion.Residue
import Retrieval.Proofs.Http.Discretion
import Retrieval.Proofs.Http.Identifiers
import Retrieval.Proofs.Text.Points
import Retrieval.Proofs.Chunk.Cuts
import Retrieval.Proofs.Chunk.Carry
import Retrieval.Proofs.Chunk.Passing
import Retrieval.Proofs.Tokenizer.Greedy
import Retrieval.Proofs.Chunk.Levels
import Retrieval.Proofs.Chunk.Overrun
import Retrieval.Proofs.Chunk.CarriedBytes
import Retrieval.Proofs.Chunk.Asking
import Retrieval.Proofs.Search.Closure
import Retrieval.Proofs.Ingestion.Chunking
import Retrieval.Proofs.Http.Searches
import Retrieval.Proofs.Schema.Settled
import Retrieval.Proofs.Number.Naturals
import Retrieval.Proofs.Store.Counting
import Retrieval.Proofs.Store.Paging
import Retrieval.Proofs.Ingestion.Capacity
import Retrieval.Proofs.Search.Recheck
import Retrieval.Proofs.Chunk.Splitting
import Retrieval.Proofs.Registry.Singletons
