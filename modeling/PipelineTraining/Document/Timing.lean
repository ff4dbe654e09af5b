import PipelineTraining.Document.Plan
import PipelineTraining.Timing.Record

/-!
Timing records in data files, and where flushed records go.
-/

namespace PipelineTraining
open Document

namespace TimingRecord

def encode (record : TimingRecord) : Json :=
  .object [
    ("iteration", .natural record.iteration),
    ("rank", .natural record.rank),
    ("operation", record.operation.encode),
    ("start_us", .natural record.start),
    ("end_us", .natural record.finish)]

def decode? (json : Json) : Option TimingRecord := do
  match ← values? ["iteration", "rank", "operation", "start_us", "end_us"] json with
  | [iteration, rank, operation, start, finish] =>
      return ⟨← natural? iteration, ← natural? rank, ← Operation.decode? operation,
        ← natural? start, ← natural? finish⟩
  | _ => none

def line (record : TimingRecord) : String :=
  record.encode.write ++ "\n"

end TimingRecord

/-- Where flushed records go. A sink of lines may have room for so many bytes only. -/
inductive Sink where
  | silent
  | memory (records : List TimingRecord)
  | lines (records : List TimingRecord) (room : Option Nat)
  | summary (totals : Summary)

namespace Sink

def text (records : List TimingRecord) : String :=
  String.join (records.map TimingRecord.line)

def full : Fault := .io "disk full"

def accept (sink : Sink) (records : List TimingRecord) : Sink × Except Fault Unit :=
  match sink with
  | .silent => (.silent, .ok ())
  | .memory kept => (.memory (kept ++ records), .ok ())
  | .summary totals => (.summary (totals.addAll records), .ok ())
  | .lines kept none => (.lines (kept ++ records) none, .ok ())
  | .lines kept (some room) =>
      if (text (kept ++ records)).utf8ByteSize ≤ room then
        (.lines (kept ++ records) (some room), .ok ())
      else (sink, .error full)

/-- Hands records over in batches of `size`, at least one record each, up to the first that is not
accepted. The first argument bounds the number of batches. -/
def acceptBatches (size : Nat) : Nat → Sink → List TimingRecord → Except Fault Sink
  | 0, sink, _ => .ok sink
  | batches + 1, sink, records =>
      if records.isEmpty then .ok sink
      else
        match sink.accept (records.take (max size 1)) with
        | (_, .error fault) => .error fault
        | (sink, .ok ()) => acceptBatches size batches sink (records.drop (max size 1))

def records : Sink → List TimingRecord
  | .memory records => records
  | .lines records _ => records
  | _ => []

def counted : Sink → Summary
  | .summary totals => totals
  | _ => .empty

end Sink

namespace Recorder

/-- Hands the buffer over and empties it, whatever becomes of the records. -/
def flush (recorder : Recorder) (sink : Sink) : Recorder × Sink × Except Fault Unit :=
  if recorder.buffer.isEmpty then (recorder, sink, .ok ())
  else
    let (sink, result) := sink.accept recorder.buffer
    ({ recorder with buffer := [] }, sink, result)

end Recorder
end PipelineTraining
