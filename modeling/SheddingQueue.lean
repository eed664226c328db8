import SheddingQueue.Main
import SheddingQueue.Proofs.Closing
import SheddingQueue.Proofs.Consumer.Backlog
import SheddingQueue.Proofs.Consumer.Imageless
import SheddingQueue.Proofs.Consumer.Iteration
import SheddingQueue.Proofs.Crowd.Blocking
import SheddingQueue.Proofs.Crowd.Order
import SheddingQueue.Proofs.Crowd.Persisting
import SheddingQueue.Proofs.Crowd.Waiting
import SheddingQueue.Proofs.Demo
import SheddingQueue.Proofs.Demo.Conservation
import SheddingQueue.Proofs.Demo.Messages
import SheddingQueue.Proofs.Demo.Record
import SheddingQueue.Proofs.Demo.Rendering
import SheddingQueue.Proofs.Demo.Rounds
import SheddingQueue.Proofs.Demo.Totals
import SheddingQueue.Proofs.Frame.Equality
import SheddingQueue.Proofs.Options.Order
import SheddingQueue.Proofs.Ring
import SheddingQueue.Proofs.Session.Counters
import SheddingQueue.Proofs.Session.Deals
import SheddingQueue.Proofs.Session.Diagnostics
import SheddingQueue.Proofs.Session.Erasure
import SheddingQueue.Proofs.Session.Shedding
import SheddingQueue.Proofs.Settings
import SheddingQueue.Proofs.Shift.Warning
import SheddingQueue.Session.History
