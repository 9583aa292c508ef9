import KamaWebserver.LogPipeline
import KamaWebserver.Library.Stages

set_option autoImplicit false

namespace KamaWebserver

open Outcome Transition Decimal

/-- The files hold whole records: each one those of its chunk. -/
structure LogFile.Holds (output : LogFile) (stages : Stages (List UInt8)) : Prop where
  closed : output.closed.map (·.file.contents) = stages.closed.map List.flatten
  opened : output.file.map (·.file.contents) = stages.opened.map List.flatten

/-- So do the buffers. -/
structure AsyncLogging.Holds (log : AsyncLogging) (stages : Stages (List UInt8)) : Prop where
  batch : log.unwritten.map contents = stages.batch.map List.flatten
  queued : log.buffers.map contents = stages.queued.map List.flatten
  current : contents log.currentBuffer = stages.current.flatten

/-- No write sets the error flag of the stream. -/
def WriteAnswers.Clean (answers : WriteAnswers) : Prop :=
  ∀ result ∈ answers.results, result.error = false

namespace FileUtil

variable {data : List UInt8} {results : List FwriteResult} {file after : FileUtil}

/-- Without an error the loop goes on until everything is written. -/
theorem appendLoop_whole {writen last : Nat} (clean : ∀ result ∈ results, result.error = false)
    (returned : appendLoop data results writen file = .ok (after, last)) :
    last = data.length := by
  induction results generalizing writen file with
  | nil =>
      rw [appendLoop] at returned
      split at returned
      · cases returned
      · rename_i all
        cases returned
        exact not_not.mp all
  | cons result results ih =>
      have here : result.error = false := clean result List.mem_cons_self
      have later := fun other inside => clean other (List.mem_cons_of_mem result inside)
      rw [appendLoop] at returned
      split at returned
      · simp only [here, Bool.false_eq_true, and_false, ↓reduceIte] at returned
        exact ih later returned
      · rename_i all
        cases returned
        exact not_not.mp all

theorem appendLoop_fault {writen : Nat} {fault : Fault}
    (failed : appendLoop data results writen file = .error fault) : fault = .notEnabled := by
  induction results generalizing writen file with
  | nil =>
      rw [appendLoop] at failed
      split at failed
      · cases failed
        rfl
      · cases failed
  | cons result results ih =>
      rw [appendLoop] at failed
      split at failed
      · simp only at failed
        split at failed
        · cases failed
        · exact ih failed
      · cases failed

theorem append_whole (clean : ∀ result ∈ results, result.error = false)
    (returned : file.append data results = .ok after) :
    after.contents = file.contents ++ data := by
  obtain ⟨⟨written, last⟩, looped, result⟩ := (bind_ok_iff _ _ _).mp returned
  obtain ⟨total, within, contents, -⟩ :=
    appendLoop_taken (Nat.zero_le _) (List.append_nil file.contents).symm looped
  have all := appendLoop_whole clean looped
  rw [Nat.zero_add, Nat.sub_zero] at total
  rw [List.take_of_length_le (by omega)] at contents
  cases result
  exact contents

end FileUtil

namespace LogFile

variable {localtime : Int → Tm} {output after : LogFile} {stages : Stages (List UInt8)}
  {call : AppendCall} {chunk : List (List UInt8)} {rest : List (List (List UInt8))}
  {wrote : RolledFile}

/-- A call on an open file fails only by not returning. -/
theorem append_fault {fault : Fault} (there : output.file.isSome)
    (failed : output.append localtime call = .error fault) : fault = .notEnabled := by
  obtain ⟨held, there⟩ := Option.isSome_iff_exists.mp there
  cases written : held.file.append call.data call.results with
  | ok file =>
      obtain ⟨next, returned, -⟩ := append_appended localtime there written
      rw [failed] at returned
      cases returned
  | error reason =>
      have same : reason = fault := by
        simp only [LogFile.append, appendInlock, writeFile, there, written, bind, Except.bind,
          Except.error.injEq] at failed
        exact failed
      subst same
      cases looped : FileUtil.appendLoop call.data call.results 0 held.file with
      | ok result =>
          simp only [FileUtil.append, looped, bind, Except.bind] at written
          cases written
      | error cause =>
          simp only [FileUtil.append, looped, bind, Except.bind, Except.error.injEq] at written
          exact written ▸ FileUtil.appendLoop_fault looped

theorem flush_ok (there : output.file.isSome) : output.flush = .ok output := by
  obtain ⟨held, there⟩ := Option.isSome_iff_exists.mp there
  rw [flush, there]

/-- The file is closed and an empty one opened. -/
theorem Holds.roll (held : output.Holds stages) (there : output.file = some wrote)
    (closed : after.closed = output.closed ++ [wrote]) {name : List UInt8} {now : Int}
    (opened : after.file = some ⟨.construct name, now, []⟩) : after.Holds stages.roll := by
  have here := held.opened
  rw [there, Option.map_some, eq_comm, Option.map_eq_some_iff] at here
  obtain ⟨records, inside, same⟩ := here
  constructor
  · rw [closed, List.map_append, held.closed]
    simp [Stages.roll, inside, same]
  · rw [opened]
    rfl

/-- A write puts the chunk it is given into the open file and perhaps opens another one. -/
theorem Holds.appended (held : output.Holds stages)
    (clean : ∀ result ∈ call.results, result.error = false)
    (batch : stages.batch = chunk :: rest) (data : call.data = chunk.flatten)
    (returned : output.append localtime call = .ok after) :
    after.file.isSome ∧ (after.Holds stages.store ∨ after.Holds stages.store.roll) := by
  obtain ⟨current, file, there, written, appended⟩ := append_cases localtime returned
  have opened := held.opened
  rw [there, Option.map_some, eq_comm, Option.map_eq_some_iff] at opened
  obtain ⟨records, here, same⟩ := opened
  have whole : file.contents = (records ++ chunk).flatten := by
    rw [FileUtil.append_whole clean written, data, List.flatten_append, same]
  have stored (log : LogFile) (closed : log.closed = output.closed)
      (kept : log.file = some { current with file, calls := call :: current.calls }) :
      log.Holds stages.store := by
    refine ⟨by rw [closed, held.closed]; rfl, ?_⟩
    rw [kept]
    simp [Stages.store, here, batch, whole]
  cases appended with
  | rolledFull | rolledPeriod =>
      refine ⟨rfl, Or.inr (Holds.roll (stored { output with file := some _ } rfl rfl) rfl rfl rfl)⟩
  | refusedFull | counted | samePeriod | refusedPeriod =>
      exact ⟨rfl, Or.inl (stored _ rfl rfl)⟩

theorem Holds.append (held : output.Holds stages) (there : output.file.isSome)
    (clean : ∀ result ∈ call.results, result.error = false)
    (batch : stages.batch = chunk :: rest) (data : call.data = chunk.flatten) :
    Spec (fun fault => fault = .notEnabled)
      (fun after => after.file.isSome ∧ (after.Holds stages.store ∨ after.Holds stages.store.roll))
      (output.append localtime call) := by
  cases returned : output.append localtime call with
  | ok after => exact held.appended clean batch data returned
  | error fault => exact append_fault there returned

end LogFile

namespace AsyncLogging

variable {log log' : AsyncLogging} {event : LogEvent} {stages : Stages (List UInt8)}

theorem Holds.append {logline : LogLine} (stepped : Stepped log (.append logline) log')
    (held : log.Holds stages) :
    log'.Holds (stages.push logline.bytes) ∨ log'.Holds (stages.rotate.push logline.bytes) := by
  cases stepped with
  | @filled _ current here room =>
      have before := held.current
      simp only [contents, here] at before
      refine Or.inl ⟨held.batch, held.queued, ?_⟩
      simp [contents, FixedBuffer.append_contents _ _ room, before, Stages.push]
  | @swapped _ current here full =>
      have before := held.current
      simp only [contents, here] at before
      have fits : logline.bytes.length < (FixedBuffer.empty : LargeBuffer).avail := logline.short
      refine Or.inr ⟨held.batch, ?_, ?_⟩
      · simp [contents, held.queued, before, Stages.push, Stages.rotate]
      · simp [contents, FixedBuffer.append_contents _ _ fits, Stages.push, Stages.rotate]

theorem Stepped.backend_ne_idle (stepped : Stepped log .backend log') : log'.pc ≠ .idle := by
  intro idle
  cases stepped with
  | tested here => cases running : log.running <;> simp [running] at idle
  | _ => cases idle

/-- A stage beyond the batch says nothing about the buffers. -/
theorem Holds.beyond (held : log.Holds stages) (closed : List (List (List UInt8)))
    (opened : Option (List (List UInt8))) : log.Holds { stages with closed, opened } :=
  ⟨held.batch, held.queued, held.current⟩

end AsyncLogging

namespace LogPipeline

variable {env : LogEnvironment} {log log' : AsyncLogging} {output : LogFile}
  {stages : Stages (List UInt8)} {answers : WriteAnswers}

/-- What a step of the backend does to the buffers and to its file keeps every record in its
place in the order. -/
theorem useOutput_holds (stepped : AsyncLogging.Stepped log .backend log')
    (held : log.Holds stages) (stored : output.Holds stages) (there : output.file.isSome)
    (clean : answers.Clean) :
    Spec (fun fault => fault = .notEnabled)
      (fun output => output.file.isSome ∧ ∃ next : Stages (List UInt8),
        output.Holds next ∧ log'.Holds next ∧ next.all = stages.all)
      (useOutput env log answers output) := by
  have flushed := output.flush_ok there
  obtain ⟨batch, queued, current⟩ := id held
  cases stepped with
  | tested here =>
      have same : useOutput env log answers output = .ok output := by
        simp only [useOutput, here, flushed, ite_self]
      rw [same]
      refine ⟨there, stages, stored, ⟨?_, queued, current⟩, rfl⟩
      rw [← batch]
      cases running : log.running <;> simp [AsyncLogging.unwritten, here]
  | waits here drained =>
      rw [useOutput, here]
      refine ⟨there, stages, stored, ⟨?_, queued, current⟩, rfl⟩
      rw [← batch]
      simp [AsyncLogging.unwritten, here]
  | @collected last newbuffer2 here present given =>
      have quiet : log.unwritten = [] ∧ useOutput env log answers output = .ok output := by
        rcases here with here | ⟨here, -⟩ <;> simp [AsyncLogging.unwritten, useOutput, here]
      rw [quiet.1, List.map_nil, eq_comm, List.map_eq_nil_iff] at batch
      rw [quiet.2]
      refine ⟨there, stages.collect, ⟨stored.closed, stored.opened⟩, ⟨?_, rfl, rfl⟩,
        Stages.all_collect batch⟩
      rw [present] at current
      simp only [AsyncLogging.unwritten, List.drop_zero, List.map_append, Stages.collect, queued]
      simp [current]
  | @wrote index buffer here next =>
      obtain ⟨inside, get⟩ := List.getElem?_eq_some_iff.mp next
      simp only [AsyncLogging.unwritten, here] at batch
      rw [List.drop_eq_getElem_cons inside, get, List.map_cons, eq_comm,
        List.map_eq_cons_iff] at batch
      obtain ⟨chunk, rest, front, same, others⟩ := batch
      have call : useOutput env log answers output =
          output.append env.localtime (answers.call buffer.contents) := by
        simp only [useOutput, here, next, deref, bind, Except.bind]
      have opened : stages.opened.isSome := by
        rw [← Option.isSome_map (f := List.flatten), ← stored.opened, Option.isSome_map]
        exact there
      have left : stages.store.batch = rest := by rw [Stages.store, front, List.tail_cons]
      have kept : AsyncLogging.Holds { log with
          output := log.output ++ buffer.contents
          pc := .write (index + 1) } stages.store :=
        ⟨by rw [left]; exact others.symm, queued, current⟩
      have whole : ∀ result ∈ (answers.call buffer.contents).results, result.error = false := clean
      rw [call]
      refine (stored.append there whole front same.symm).mono fun after wrote => ⟨wrote.1, ?_⟩
      rcases wrote.2 with stays | rolls
      · exact ⟨stages.store, stays, kept, Stages.all_store opened⟩
      · exact ⟨stages.store.roll, rolls, kept.beyond _ _, by
          rw [Stages.all_roll, Stages.all_store opened]⟩
  | @finished index here all =>
      rw [useOutput, here]
      simp only [List.getElem?_eq_none all]
      refine ⟨there, stages, stored, ⟨?_, queued, current⟩, rfl⟩
      rw [← batch]
      simp [AsyncLogging.unwritten, here, List.drop_of_length_le all]
  | recycled here =>
      rw [useOutput, here]
      simp only [flushed]
      refine ⟨there, stages, stored, ⟨?_, queued, current⟩, rfl⟩
      rw [← batch]
      simp [AsyncLogging.unwritten, here]

/-- All the files of the log. -/
def files (pipeline : LogPipeline) : List RolledFile := pipeline.output.elim [] LogFile.files

/-- The records of one thread. -/
def ofThread (thread : Nat) (records : List (Nat × List UInt8)) : List (List UInt8) :=
  (records.filter (·.1 = thread)).map (·.2)

/-- The files, the batch, the queued buffers and the current one hold whole records, which are
those that were appended, in that order; and of each thread these are all it has made but for
what its destructor has not handed on, in the order it made them. -/
structure Delivers (pipeline : LogPipeline) : Prop where
  held : ∃ stages : Stages (List UInt8),
    pipeline.files.map (·.file.contents) = stages.stored.map List.flatten ∧
      pipeline.logging.Holds stages ∧ pipeline.sent.map (·.2) = stages.all
  ordered : ∀ thread, ofThread thread pipeline.logged =
    ofThread thread pipeline.sent ++ outputs (pipeline.destructors thread)

/-- Before the thread starts there is no file. -/
def Stored (stages : Stages (List UInt8)) : Option LogFile → Prop
  | some output => output.file.isSome ∧ output.Holds stages
  | none => stages.closed = [] ∧ stages.opened = none

/-- What holds between any two steps. -/
structure Sound (pipeline : LogPipeline) : Prop where
  rotating : pipeline.logging.Rotating
  unstarted : pipeline.logging.pc = .idle → pipeline.output = none
  short : ∀ thread, ∀ msg ∈ outputs (pipeline.destructors thread), msg.length < kLargeBufferSize
  held : ∃ stages : Stages (List UInt8),
    Stored stages pipeline.output ∧ pipeline.logging.Holds stages ∧
      pipeline.sent.map (·.2) = stages.all
  ordered : ∀ thread, ofThread thread pipeline.logged =
    ofThread thread pipeline.sent ++ outputs (pipeline.destructors thread)

variable {pipeline : LogPipeline}

/-- The buffers say nothing about the files. -/
theorem Stored.beyond {output : Option LogFile} (stored : Stored stages output)
    (batch queued : List (List (List UInt8))) (current : List (List UInt8)) :
    Stored { stages with batch, queued, current } output := by
  cases output with
  | none => exact stored
  | some output => exact ⟨stored.1, stored.2.closed, stored.2.opened⟩

theorem Stored.files (stored : Stored stages pipeline.output) :
    pipeline.files.map (·.file.contents) = stages.stored.map List.flatten := by
  unfold LogPipeline.files Stages.stored
  cases there : pipeline.output with
  | none =>
      rw [there] at stored
      simp [stored.1, stored.2]
  | some output =>
      rw [there] at stored
      rw [Option.elim_some, LogFile.files, List.map_append, List.map_append, stored.2.closed,
        ← Option.toList_map, ← Option.toList_map, stored.2.opened]

theorem Sound.delivers (sound : pipeline.Sound) : pipeline.Delivers := by
  obtain ⟨stages, stored, held, sent⟩ := sound.held
  exact ⟨⟨stages, stored.files, held, sent⟩, sound.ordered⟩

@[simp] theorem ofThread_append (thread : Nat) (first second : List (Nat × List UInt8)) :
    ofThread thread (first ++ second) = ofThread thread first ++ ofThread thread second := by
  simp [ofThread]

/-- The records of one thread are its own and nobody else's. -/
theorem ofThread_tagged (thread other : Nat) (records : List (List UInt8)) :
    ofThread thread (records.map fun msg => (other, msg)) =
      if other = thread then records else [] := by
  by_cases same : other = thread
  · simp [ofThread, List.filter_map, Function.comp_def, same]
  · simp [ofThread, List.filter_map, Function.comp_def, same]

/-- A record leaves the last byte of its buffer free. -/
theorem finished_length_lt {contents : List UInt8} (file : List UInt8)
    (line : IntegerType.int.Value) (short : contents.length < kSmallBufferSize) :
    (finished contents file line.val).length < kSmallBufferSize := by
  have named := kept_length_lt _ file (kept_length_lt _ (ascii " - ") short)
  have numbered := keep_length_lt _ (.integer .int line) (kept_length_lt _ (ascii ":") named)
  exact kept_length_lt _ (ascii "\n") numbered

/-- A statement never fails. -/
theorem logStatement_short (env : LogEnvironment) (statement : LogStatement) :
    ∃ msg effects, logStatement env statement.now statement.memory statement.filename
        statement.line statement.level statement.operands = .ok effects ∧
      outputs effects = [msg] ∧ msg.length < kLargeBufferSize := by
  obtain ⟨logger, logged, contents, ranked, -, -⟩ :=
    logMessage_contents env statement.now statement.memory statement.filename statement.line
      statement.level statement.operands
  have short := logMessage_length_lt env statement.now statement.level statement.operands
  rw [← contents] at short
  refine ⟨_, _, logStatement_record _ _ _ _ _ _ _ logged ranked, ?_,
    Nat.lt_trans (finished_length_lt logger.impl.basename.data logger.impl.line short) (by decide)⟩
  split <;> rfl

@[simp] theorem outputs_output (msg : List UInt8) (rest : List LogEffect) :
    outputs (.output msg :: rest) = msg :: outputs rest := rfl

/-- No destructor but that of the thread changes. -/
theorem outputs_update (destructors : Nat → List LogEffect) (thread other : Nat)
    (effects : List LogEffect) :
    outputs (Function.update destructors thread effects other) =
      if thread = other then outputs effects else outputs (destructors other) := by
  by_cases same : thread = other
  · rw [if_pos same, same, Function.update_self]
  · rw [if_neg same, Function.update_of_ne (Ne.symm same)]

theorem Sound.statement (sound : pipeline.Sound) (thread : Nat) (statement : LogStatement) :
    Spec (fun fault => fault = .notEnabled) Sound (pipeline.statement env thread statement) := by
  obtain ⟨rotating, unstarted, short, held, ordered⟩ := sound
  obtain ⟨msg, effects, logged, record, brief⟩ := logStatement_short env statement
  simp only [LogPipeline.statement, logged, bind, Except.bind]
  split
  · rename_i idle
    refine ⟨rotating, unstarted, ?_, held, ?_⟩
    · intro other
      rw [outputs_update]
      split
      · rw [record, List.forall_mem_singleton]
        exact brief
      · exact short other
    · intro other
      rw [ofThread_append, ofThread_tagged, outputs_update, ordered]
      split
      · rename_i same
        subst same
        rw [idle, record]
        simp [outputs]
      · rw [List.append_nil]
  · exact rfl

/-- What a destructor does beside handing on its record is not seen. -/
theorem Sound.quiet (sound : pipeline.Sound) {thread : Nat} {effect : LogEffect}
    {rest : List LogEffect} (doing : pipeline.destructors thread = effect :: rest)
    (silent : effect.record = none) (aborted : Bool) :
    Sound { pipeline with
      destructors := Function.update pipeline.destructors thread rest
      aborted } := by
  obtain ⟨rotating, unstarted, short, held, ordered⟩ := sound
  have same : ∀ other, outputs (Function.update pipeline.destructors thread rest other) =
      outputs (pipeline.destructors other) := by
    intro other
    rw [outputs_update]
    split
    · rename_i here
      rw [← here, doing, outputs, outputs, List.filterMap_cons_none silent]
    · rfl
  refine ⟨rotating, unstarted, ?_, held, ?_⟩
  · intro other
    rw [same]
    exact short other
  · intro other
    rw [same]
    exact ordered other

/-- Handing on a record moves it from the destructor to the buffers. -/
theorem Sound.handOn (sound : pipeline.Sound) {thread : Nat} {msg : List UInt8}
    {rest : List LogEffect} (doing : pipeline.destructors thread = .output msg :: rest)
    (brief : msg.length < kLargeBufferSize)
    (stepped : AsyncLogging.Stepped pipeline.logging (.append ⟨msg, brief⟩) log') :
    Sound { pipeline with
      logging := log'
      destructors := Function.update pipeline.destructors thread rest
      sent := pipeline.sent ++ [(thread, msg)] } := by
  obtain ⟨rotating, unstarted, short, ⟨stages, stored, held, sent⟩, ordered⟩ := sound
  have before : outputs (pipeline.destructors thread) = msg :: outputs rest := by
    rw [doing, outputs_output]
  refine ⟨stepped.rotating rotating, ?_, ?_, ?_, ?_⟩
  · intro idle
    apply unstarted
    cases stepped <;> exact idle
  · intro other
    rw [outputs_update]
    split
    · rename_i here
      subst here
      intro later inside
      apply short
      rw [before]
      exact List.mem_cons_of_mem msg inside
    · exact short other
  · rw [List.map_append, List.map_singleton, sent]
    rcases held.append stepped with filled | swapped
    · exact ⟨stages.push msg, stored.beyond _ _ _, filled, (stages.all_push msg).symm⟩
    · exact ⟨stages.rotate.push msg, stored.beyond _ _ _, swapped, by
        rw [Stages.all_push, Stages.all_rotate]⟩
  · intro other
    rw [ofThread_append, ordered, outputs_update]
    by_cases here : thread = other
    · subst here
      rw [if_pos rfl, before]
      simp [ofThread]
    · rw [if_neg here]
      simp [ofThread, here]

theorem Sound.effect (sound : pipeline.Sound) (thread : Nat) :
    Spec (fun fault => fault = .notEnabled) Sound (pipeline.effect thread) := by
  unfold LogPipeline.effect
  split
  · rename_i effect rest doing
    cases effect with
    | output msg =>
        have brief : msg.length < kLargeBufferSize := by
          apply sound.short thread
          rw [doing, outputs_output]
          exact List.mem_cons_self
        exact (sound.rotating.stepped (.append ⟨msg, brief⟩)).bind fun log' stepped =>
          sound.handOn doing brief stepped
    | flush => exact sound.quiet doing rfl pipeline.aborted
    | abort => exact sound.quiet doing rfl true
  · exact rfl

theorem Sound.start (sound : pipeline.Sound) (basename : List UInt8) (rollSize count : Int)
    {now : Int} (ticked : 0 < now) :
    Spec (fun fault => fault = .notEnabled) Sound
      (pipeline.start env basename rollSize count now) := by
  obtain ⟨rotating, unstarted, short, ⟨stages, stored, held, sent⟩, ordered⟩ := sound
  refine Spec.bind (rotating.stepped .start) fun log' stepped => ?_
  have rotates := stepped.rotating rotating
  cases stepped with
  | started here =>
      rw [unstarted here] at stored
      refine ⟨rotates, fun idle => ?_, short, ⟨stages.start, ?_, ?_, ?_⟩, ordered⟩
      · cases idle
      · have opened : (0 : Int) < now := ticked
        simp only [Stored, LogFile.construct, LogFile.rollFile, if_pos opened]
        exact ⟨rfl, by rw [Stages.start, stored.1]; rfl, rfl⟩
      · refine ⟨?_, held.queued, held.current⟩
        rw [Stages.start, ← held.batch]
        simp [AsyncLogging.unwritten, here]
      · rw [Stages.all_start stored.2]
        exact sent

theorem Sound.stop (sound : pipeline.Sound) :
    Sound { pipeline with logging := pipeline.logging.stop } := by
  obtain ⟨rotating, unstarted, short, ⟨stages, stored, held, sent⟩, ordered⟩ := sound
  exact ⟨AsyncLogging.Stepped.stopped.rotating rotating, unstarted, short,
    ⟨stages, stored, ⟨held.batch, held.queued, held.current⟩, sent⟩, ordered⟩

theorem Sound.backend (sound : pipeline.Sound) (clean : answers.Clean) :
    Spec (fun fault => fault = .notEnabled) Sound (pipeline.backend env answers) := by
  obtain ⟨rotating, unstarted, short, ⟨stages, stored, held, sent⟩, ordered⟩ := sound
  unfold LogPipeline.backend
  split
  · rename_i output there
    rw [there] at stored
    refine Spec.bind (rotating.stepped .backend) fun log' stepped => ?_
    refine Spec.bind (useOutput_holds stepped held stored.2 stored.1 clean) fun after wrote => ?_
    obtain ⟨opened, next, written, holds, same⟩ := wrote
    refine ⟨stepped.rotating rotating, fun idle => absurd idle stepped.backend_ne_idle, short, ?_,
      ordered⟩
    exact ⟨next, ⟨opened, written⟩, holds, sent.trans same.symm⟩
  · exact rfl

theorem create_sound : create.Sound :=
  ⟨AsyncLogging.create_rotating, fun _ => rfl, fun _ => List.forall_mem_nil _,
    ⟨.empty, ⟨rfl, rfl⟩, ⟨rfl, rfl, rfl⟩, rfl⟩, fun _ => rfl⟩

end LogPipeline

/-- The clock is past 1970 when the thread starts, and no write sets the error flag. -/
def PipelineEvent.Clean : PipelineEvent → Prop
  | .statement _ _ => True
  | .effect _ => True
  | .start _ now => 0 < now
  | .stop => True
  | .backend answers => answers.Clean

namespace LogPipeline

variable {env : LogEnvironment} {pipeline : LogPipeline}

theorem Sound.step (sound : pipeline.Sound) (basename : List UInt8) (rollSize : Int)
    {event : PipelineEvent} (clean : event.Clean) :
    Spec (fun fault => fault = .notEnabled) Sound (pipeline.step env basename rollSize event) := by
  unfold LogPipeline.step
  split
  · exact rfl
  · cases event with
    | statement thread statement => exact sound.statement thread statement
    | effect thread => exact sound.effect thread
    | start count now => exact sound.start basename rollSize count clean
    | stop => exact sound.stop
    | backend answers => exact sound.backend clean

/-- However the statements of any number of threads, the rolling of the files and the steps of
the logger follow each other, every record is in one file or buffer as a whole, once, and in
the order its thread made it. -/
theorem records_delivered (env : LogEnvironment) (basename : List UInt8) (rollSize : Int)
    (events : List PipelineEvent) (clean : ∀ event ∈ events, event.Clean) :
    Always (LogPipeline.step env basename rollSize) Delivers (fun fault => fault = .notEnabled)
      create events :=
  always_of_guarded Sound (fun _ sound => sound.delivers)
    (fun _ _ sound clean => sound.step basename rollSize clean) create_sound
    (guarded_of_forall (fun event inside _ => clean event inside) create)

def greeting (text : List UInt8) : LogStatement :=
  ⟨0, Vector.replicate kSmallBufferSize 0, ⟨ascii "src/main.cc", by decide⟩, ⟨30, by decide⟩,
    .INFO, [.string text]⟩

/-- The second thread overtakes the first, whose record is written in two pieces. -/
def overtaking : List PipelineEvent :=
  [.start 0 1, .statement 1 (greeting (ascii "one")), .statement 2 (greeting (ascii "two")),
    .effect 2, .backend ⟨[], 0, 0⟩, .backend ⟨[], 0, 0⟩, .effect 1, .backend ⟨[], 0, 0⟩,
    .backend ⟨[⟨50, false⟩, ⟨kLargeBufferSize, false⟩], 2, 3⟩, .backend ⟨[], 0, 0⟩]

theorem overtaking_delivered :
    Always (LogPipeline.step ⟨localtime 0, fun _ => []⟩ (ascii "logs/main") 64) Delivers
      (fun fault => fault = .notEnabled) create overtaking :=
  records_delivered _ _ 64 overtaking (by
    simp [overtaking, PipelineEvent.Clean, WriteAnswers.Clean])

end LogPipeline

end KamaWebserver
