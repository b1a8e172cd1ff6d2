import RateTree.CommandLine.Execute
import RateTree.Proofs.RateReplies
import RateTree.Proofs.Spending
import RateTree.Proofs.Steadiness

/-!
# Runs of scripts

A script is carried out line by line on the limiter that the lines before have left. A line that cannot
be carried out is counted and the script goes on; only a fault ends it before its last line. A line
faults if it names the largest 32-bit number as a function of `vf` or `leaf`, since the function's
position is the number after it, or if it asks about a ring too large to be numbered. Nothing else
faults, except that a script of `2 ^ 31` lines and more may run out of addresses or of count.
-/

namespace RateTree

open ScriptCommand (ofWords number node service)
open ScriptSession (perform wordsOf echo)

/-! ## Words that overreach -/

namespace Text

theorem readDigits_lt {value result : Nat} {digits : List Char} (small : value < 2 ^ 32)
    (read : readDigits value digits = .ok result) : result < 2 ^ 32 := by
  induction digits generalizing value with
  | nil =>
      cases read
      exact small
  | cons digit rest ih =>
      simp only [readDigits] at read
      split at read
      · contradiction
      · split at read
        · next fits => exact ih fits read
        · contradiction

theorem readNumeral_lt {text : List Char} {result : Nat} (read : readNumeral text = .ok result) :
    result < 2 ^ 32 := by
  simp only [readNumeral] at read
  split at read
  · contradiction
  · contradiction
  · exact readDigits_lt (by decide) read
  · exact readDigits_lt (by decide) read

end Text

/-- Whether the words of a line name the largest number as a function, where `vf` or `leaf` reads it. -/
inductive NamesLargest (words : List String) : Prop where
  | function (name : words[0]? = some "vf") (largest : number words 1 = .ok Word.max32)
  | leaf {id parent : NodeId} {served : Service} (name : words[0]? = some "leaf")
      (id_eq : node words 1 = .ok id) (parent_eq : node words 2 = .ok parent)
      (served_eq : service words 4 = .ok served) (largest : number words 3 = .ok Word.max32)

/-- Whether the words of a line overreach what a device with a configuration can number. -/
inductive Overreaches (config : DeviceConfig) (words : List String) : Prop where
  | function (names : NamesLargest words)
  | ring {query : RateQuery} (asked : ofWords words = .ok (.query query.kind query.vf query.bank))
      (inside : query.Inside config) (large : 2 ^ 32 ≤ query.ring config)
      (unserved : config.services = [])

namespace ScriptCommand

variable {words : List String} {α β : Type}

theorem number_lt {position value : Nat} (read : number words position = .ok value) :
    value < 2 ^ 32 := by
  simp only [number, Outcome.bind_eq_ok] at read
  rcases read with ⟨word, -, numeral⟩
  cases result : Text.readNumeral word.toList with
  | error cause =>
      rw [result] at numeral
      contradiction
  | ok same =>
      rw [result] at numeral
      cases numeral
      exact Text.readNumeral_lt result

/-- Whether reading a line ends without a fault. -/
abbrev ReadsFaultless (outcome : Except ScriptFailure α) : Prop :=
  Outcome.Avoids (fun failure => ∃ cause, failure = .fault cause) outcome

theorem ReadsFaultless.bind_read {read : Except ScriptError α} {next : α → Except ScriptFailure β}
    (rest : ∀ value, ReadsFaultless (next value)) : ReadsFaultless (liftM read >>= next) := by
  refine Outcome.Avoids.bind ?_ rest
  cases read with
  | error cause => exact .error (by simp)
  | ok value => exact .ok value

theorem ReadsFaultless.ne_fault {outcome : Except ScriptFailure α} {cause : Fault}
    (faultless : ReadsFaultless outcome) : outcome ≠ .error (.fault cause) :=
  fun failed => faultless _ failed ⟨cause, rfl⟩

theorem bind_read_eq_fault {read : Except ScriptError α} {next : α → Except ScriptFailure β}
    {cause : Fault} (failed : (liftM read >>= next) = .error (.fault cause)) :
    ∃ value, read = .ok value ∧ next value = .error (.fault cause) := by
  cases read with
  | error other => cases failed
  | ok value => exact ⟨value, rfl, failed⟩

theorem bind_owner_eq_fault {position : Nat} {next : PciAddress → Except ScriptFailure β}
    {cause : Fault} (failed : (owner words position >>= next) = .error (.fault cause)) :
    number words position = .ok Word.max32 ∨ ∃ address, next address = .error (.fault cause) := by
  cases named : owner words position with
  | ok address =>
      rw [named] at failed
      exact .inr ⟨address, failed⟩
  | error other =>
      rw [named] at failed
      cases failed
      rcases bind_read_eq_fault named with ⟨vf, read, placed⟩
      have small := number_lt read
      have largest : ¬vf + 1 < Word.size 32 := by
        intro fits
        simp only [PciAddress.ofVf, Word.add, if_pos fits] at placed
        cases placed
      have vf_eq : vf = Word.max32 := by
        simp only [Word.size, Word.max32] at largest ⊢
        omega
      exact .inl (vf_eq ▸ read)

/-- The words of a line fault only if they name the largest number as a function. -/
theorem namesLargest_of_fault {cause : Fault} (failed : ofWords words = .error (.fault cause)) :
    NamesLargest words := by
  rcases bind_read_eq_fault failed with ⟨name, first, rest⟩
  have name_eq : words[0]? = some name := by
    simp only [argument] at first
    split at first
    · next word found => rw [found, Except.ok.inj first]
    · contradiction
  split at rest
  · exact absurd rest (ReadsFaultless.bind_read fun _ => .bind_read fun _ => .ok _).ne_fault
  · exact absurd rest (ReadsFaultless.bind_read fun _ => .ok _).ne_fault
  · exact absurd rest (ReadsFaultless.bind_read fun _ => .bind_read fun _ => .bind_read fun _ =>
      .bind_read fun _ => .ok _).ne_fault
  · rcases bind_owner_eq_fault rest with largest | ⟨address, later⟩
    · exact .function name_eq largest
    · exact absurd later (ReadsFaultless.bind_read fun _ => .bind_read fun _ => .bind_read fun _ =>
        .ok _).ne_fault
  · rcases bind_read_eq_fault rest with ⟨id, id_eq, rest⟩
    rcases bind_read_eq_fault rest with ⟨parent, parent_eq, rest⟩
    rcases bind_read_eq_fault rest with ⟨served, served_eq, rest⟩
    rcases bind_owner_eq_fault rest with largest | ⟨address, later⟩
    · exact .leaf name_eq id_eq parent_eq served_eq largest
    · exact absurd later (ReadsFaultless.bind_read fun _ => .bind_read fun _ => .ok _).ne_fault
  · exact absurd rest (ReadsFaultless.bind_read fun _ => .bind_read fun _ => .bind_read fun _ =>
      .bind_read fun _ => .ok _).ne_fault
  · exact absurd rest (ReadsFaultless.bind_read fun _ => .ok _).ne_fault
  · exact absurd rest (ReadsFaultless.bind_read fun _ => .bind_read fun _ => .bind_read fun _ =>
      .ok _).ne_fault
  · cases rest
  · cases rest
  · cases rest
  · cases rest

theorem fault_of_namesLargest (names : NamesLargest words) :
    ofWords words = .error (.fault .addOverflow) := by
  have owner_eq {position : Nat} (largest : number words position = .ok Word.max32) :
      owner words position = .error (.fault .addOverflow) := by
    rw [owner, largest]
    decide +kernel
  cases names with
  | function name largest =>
      have first : argument words 0 = .ok "vf" := by rw [argument, name]
      rw [ofWords, first]
      show (owner words 1 >>= _) = _
      rw [owner_eq largest]
      rfl
  | leaf name id_eq parent_eq served_eq largest =>
      have first : argument words 0 = .ok "leaf" := by rw [argument, name]
      rw [ofWords, first]
      show ((liftM (node words 1) : Except ScriptFailure NodeId) >>= _) = _
      rw [id_eq]
      show ((liftM (node words 2) : Except ScriptFailure NodeId) >>= _) = _
      rw [parent_eq]
      show ((liftM (service words 4) : Except ScriptFailure Service) >>= _) = _
      rw [served_eq]
      show (owner words 3 >>= _) = _
      rw [owner_eq largest]
      rfl

/-! ## What a command does to the limiter -/

variable {config : DeviceConfig} {blocks most : Nat}

theorem steady_present (lines : Tree → List String) :
    Limiter.Steady config blocks (present lines) :=
  .ask fun _ _ => .ok _

/-- Every command but a query is carried out without a fault. -/
theorem steady_carryOut (command : ScriptCommand) (other : ∀ kind vf bank, command ≠ .query kind vf bank) :
    Limiter.Steady config blocks command.carryOut := by
  cases command with
  | createNode kind served => exact (Limiter.Steady.createNode kind served).bind fun _ => .pure _
  | removeNode id => exact (Limiter.Steady.deleteNode id).bind fun _ => .pure _
  | addCluster id served cir pir => exact (Limiter.Steady.createSla _).bind fun _ => .pure _
  | addFunction owner served cir pir =>
      refine (Limiter.Steady.ask fun _ _ => faultless_check _).bind ?_
      intro sla
      exact (Limiter.Steady.createSla sla).bind fun _ => .pure _
  | addLeaf id parent served owner cir pir =>
      exact (Limiter.Steady.createSla _).bind fun _ => .pure _
  | update id cir pir parent => exact (Limiter.Steady.updateSla _).bind fun _ => .pure _
  | delete id => exact (Limiter.Steady.deleteSla id).bind fun _ => .pure _
  | query kind vf bank => exact absurd rfl (other kind vf bank)
  | capabilities | agreements | tree => exact steady_present _

theorem spends_ask (question : Tree → Outcome α) :
    Limiter.Spends 0 (Limiter.ask (δ := Bench) question) := .of_still fun _ => rfl

/-- A command takes up no more addresses than the removal of a node. -/
theorem spends_carryOut (command : ScriptCommand) :
    Limiter.Spends Limiter.cascadeSpan command.carryOut := by
  have free {action : Action BenchLimiter (List String)} (spends : Limiter.Spends 0 action) :
      Limiter.Spends Limiter.cascadeSpan action := spends.mono (Nat.zero_le _)
  have single {action : Action BenchLimiter (List String)}
      (spends : Limiter.Spends Limiter.agreementSpan action) :
      Limiter.Spends Limiter.cascadeSpan action := spends.mono (Nat.le_add_left _ _)
  cases command with
  | createNode kind served =>
      exact free ((Limiter.spends_createNode kind served).bind_free fun _ => .pure _)
  | removeNode id => exact (Limiter.spends_deleteNode id).bind_free fun _ => .pure _
  | addCluster id served cir pir =>
      exact single ((Limiter.spends_createSla _).bind_free fun _ => .pure _)
  | addFunction owner served cir pir =>
      refine single ((spends_ask _).free_bind fun sla => ?_)
      exact (Limiter.spends_createSla sla).bind_free fun _ => .pure _
  | addLeaf id parent served owner cir pir =>
      exact single ((Limiter.spends_createSla _).bind_free fun _ => .pure _)
  | update id cir pir parent =>
      exact single ((Limiter.spends_updateSla _).bind_free fun _ => .pure _)
  | delete id => exact single ((Limiter.spends_deleteSla id).bind_free fun _ => .pure _)
  | query kind vf bank => exact free ((spends_ask _).bind_free fun _ => .pure _)
  | capabilities | agreements | tree => exact free (spends_ask _)

end ScriptCommand

namespace ScriptSession

variable {config : DeviceConfig} {blocks : Nat} {limiter after : BenchLimiter} {words : List String}

theorem overreaches_of_query {kind : RateKind} {vf bank : Nat}
    (asked : ofWords words = .ok (.query kind vf bank)) (rest : limiter.AtRest config blocks)
    {cause : Fault} (failed : limiter.tree.reply ⟨kind, vf, bank⟩ = .error (.fault cause)) :
    Overreaches config words := by
  have valid := rest.sound.config_valid
  have config_eq := rest.config_eq
  rw [← config_eq]
  by_cases inside : RateQuery.Inside ⟨kind, vf, bank⟩ limiter.tree.config
  · by_cases small : RateQuery.ring ⟨kind, vf, bank⟩ limiter.tree.config < 2 ^ 32
    · rw [Tree.reply_of_inside inside small] at failed
      contradiction
    · have large := Nat.le_of_not_lt small
      exact .ring asked inside large (RateQuery.unserved_of_large valid inside large)
  · rw [Tree.reply_of_outside inside] at failed
    cases failed

theorem carryOut_query (kind : RateKind) (vf bank : Nat) (limiter : BenchLimiter) :
    (ScriptCommand.query kind vf bank).carryOut limiter =
      ((limiter.tree.reply ⟨kind, vf, bank⟩).map fun reply => [reply.line kind], limiter) := by
  simp only [ScriptCommand.carryOut, Limiter.ask, Action.bind_apply]
  cases limiter.tree.reply ⟨kind, vf, bank⟩ <;> rfl

theorem crash_of_overreaches (rest : limiter.AtRest config blocks)
    (overreaches : Overreaches config words) :
    ∃ cause, (perform words limiter).1 = .crashed cause := by
  cases overreaches with
  | function names =>
      refine ⟨.addOverflow, ?_⟩
      simp only [perform, ScriptCommand.fault_of_namesLargest names]
  | @ring query asked inside large unserved =>
      rw [← rest.config_eq] at inside large
      rcases Tree.reply_of_large inside large with ⟨cause, unanswered⟩
      refine ⟨cause, ?_⟩
      simp only [perform, asked, carryOut_query, unanswered, Except.map]

/-- A line leaves the limiter at rest, unless it overreaches or the bench has run out of addresses. -/
theorem perform_cases (rest : limiter.AtRest config blocks) (words : List String) :
    (∃ cause, (perform words limiter).1 = .crashed cause ∧
      (Overreaches config words ∨ ¬intact (perform words limiter).2.device)) ∨
    (∀ cause, (perform words limiter).1 ≠ .crashed cause) ∧
      (perform words limiter).2.AtRest config blocks := by
  simp only [perform]
  split
  · exact .inr ⟨nofun, rest⟩
  · next cause failed =>
    exact .inl ⟨cause, rfl, .inl (.function (ScriptCommand.namesLargest_of_fault failed))⟩
  · next command read =>
    -- Of the commands only a query can fault on its own; the others fault where the device does.
    by_cases query : ∃ kind vf bank, command = .query kind vf bank
    · rcases query with ⟨kind, vf, bank, rfl⟩
      rw [carryOut_query]
      cases answer : limiter.tree.reply ⟨kind, vf, bank⟩ with
      | ok reply => exact .inr ⟨nofun, rest⟩
      | error failure =>
          cases failure with
          | error cause => exact .inr ⟨nofun, rest⟩
          | fault cause => exact .inl ⟨cause, rfl, .inl (overreaches_of_query read rest answer)⟩
    · have other : ∀ kind vf bank, command ≠ .query kind vf bank :=
        fun kind vf bank same => query ⟨kind, vf, bank, same⟩
      have steady := ScriptCommand.steady_carryOut command other limiter rest
      split
      · next printed after run => exact .inr ⟨nofun, (steady.of_ok run).2⟩
      · next cause after run => exact .inr ⟨nofun, (steady.of_error run).2⟩
      · next cause after run => exact .inl ⟨cause, rfl, .inr (steady.of_fault run)⟩

theorem nextAddress_perform_le (sound : limiter.tree.WellFormed) (words : List String) :
    (perform words limiter).2.device.pool.nextAddress ≤
      limiter.device.pool.nextAddress + Limiter.cascadeSpan := by
  simp only [perform]
  split
  · exact Nat.le_add_right _ _
  · exact Nat.le_add_right _ _
  · next command _ =>
    have within := (ScriptCommand.spends_carryOut command limiter sound).2
    split <;> next run => rwa [run] at within

/-! ## Lines one after the other -/

/-- Numbered lines were carried out one after the other, each on the limiter that the one before left:
what is printed, how many lines could not be carried out, and the limiter in the end. -/
inductive Follows : BenchLimiter → List (Nat × List Char) → List String → Nat → BenchLimiter → Prop
    where
  | nothing (limiter : BenchLimiter) : Follows limiter [] [] 0 limiter
  | done {limiter between after : BenchLimiter} {number : Nat} {line : List Char}
      {rest : List (Nat × List Char)} {shown printed : List String} {failures : Nat}
      (performed : perform (wordsOf line) limiter = (.done shown, between))
      (later : Follows between rest printed failures after) :
      Follows limiter ((number, line) :: rest) (echo number line :: shown ++ printed) failures after
  | failed {limiter between after : BenchLimiter} {number : Nat} {line : List Char}
      {rest : List (Nat × List Char)} {printed : List String} {failures : Nat} {cause : ScriptError}
      (performed : perform (wordsOf line) limiter = (.failed cause, between))
      (later : Follows between rest printed failures after) :
      Follows limiter ((number, line) :: rest)
        (echo number line :: ("  !! " ++ cause.message) :: printed) (failures + 1) after

/-- How a session runs: through all lines, or up to a line that crashes or is one too many to be
counted. -/
inductive Runs (session : ScriptSession) (lines : List (Nat × List Char)) :
    List String × Except Fault ScriptSession → Prop where
  | through {printed : List String} {failures : Nat} {after : BenchLimiter}
      (follows : Follows session.limiter lines printed failures after)
      (counted : session.failures + failures < 2 ^ 31) :
      Runs session lines (printed, .ok ⟨after, session.failures + failures⟩)
  | crashed {earlier rest : List (Nat × List Char)} {number : Nat} {line : List Char}
      {printed : List String} {failures : Nat} {between after : BenchLimiter} {cause : Fault}
      (split : lines = earlier ++ (number, line) :: rest)
      (follows : Follows session.limiter earlier printed failures between)
      (performed : perform (wordsOf line) between = (.crashed cause, after)) :
      Runs session lines (printed ++ [echo number line], .error cause)
  | uncounted {earlier rest : List (Nat × List Char)} {number : Nat} {line : List Char}
      {printed : List String} {failures : Nat} {between : BenchLimiter} {cause : Fault}
      (split : lines = earlier ++ (number, line) :: rest)
      (follows : Follows session.limiter earlier printed failures between)
      (full : 2 ^ 31 ≤ session.failures + failures + 1) :
      Runs session lines (printed ++ [echo number line], .error cause)

theorem Follows.append {limiter between after : BenchLimiter} {first second : List (Nat × List Char)}
    {shown printed : List String} {count failures : Nat}
    (before : Follows limiter first shown count between)
    (later : Follows between second printed failures after) :
    Follows limiter (first ++ second) (shown ++ printed) (count + failures) after := by
  induction before with
  | nothing => simpa using later
  | done performed _ ih => simpa using Follows.done performed (ih later)
  | failed performed _ ih =>
      rw [Nat.add_right_comm]
      exact .failed performed (ih later)

/-- Lines that were carried out come before those of any run that goes on from them. -/
theorem Runs.behind {session : ScriptSession} {first lines : List (Nat × List Char)}
    {shown : List String} {count : Nat} {between : BenchLimiter}
    {ended : List String × Except Fault ScriptSession}
    (before : Follows session.limiter first shown count between)
    (runs : Runs ⟨between, session.failures + count⟩ lines ended) :
    Runs session (first ++ lines) (shown ++ ended.1, ended.2) := by
  cases runs with
  | through follows counted =>
      simp only [Nat.add_assoc] at counted ⊢
      exact .through (before.append follows) counted
  | crashed split follows crash =>
      rw [split, ← List.append_assoc]
      simp only [← List.append_assoc]
      exact .crashed rfl (before.append follows) crash
  | uncounted split follows full =>
      rw [split, ← List.append_assoc]
      simp only [← List.append_assoc]
      exact .uncounted rfl (before.append follows) (by simpa only [Nat.add_assoc] using full)

theorem run_runs (session : ScriptSession) (lines : List (Nat × List Char))
    (counted : session.failures < 2 ^ 31) : Runs session lines (run session lines) := by
  induction lines generalizing session with
  | nil => exact .through (.nothing _) counted
  | cons first rest ih =>
      rcases first with ⟨number, line⟩
      have split : (number, line) :: rest = [] ++ (number, line) :: rest := rfl
      simp only [run]
      split
      · next shown limiter performed =>
        have single : Follows session.limiter [(number, line)] (echo number line :: shown ++ []) 0
            limiter := .done performed (.nothing limiter)
        rw [List.append_nil] at single
        exact Runs.behind single (ih { session with limiter } counted)
      · next cause limiter performed =>
        by_cases fits : session.failures + 1 < Word.size 31
        · have later := ih ⟨limiter, session.failures + 1⟩ fits
          simp only [Word.add, if_pos fits]
          exact Runs.behind (.failed performed (.nothing _)) later
        · simp only [Word.add, if_neg fits]
          exact .uncounted split (.nothing _) (Nat.le_of_not_lt fits)
      · next cause limiter performed => exact .crashed split (.nothing _) performed

/-! ## What holds along the way -/

variable {lines : List (Nat × List Char)} {printed : List String} {failures : Nat}

/-- A line that does not crash leaves the limiter at rest, with few addresses used up. -/
theorem step_of_perform {outcome : LineOutcome} (rest : limiter.AtRest config blocks)
    (performed : perform words limiter = (outcome, after))
    (alive : ∀ cause, outcome ≠ .crashed cause) :
    after.AtRest config blocks ∧ after.device.pool.nextAddress ≤
      limiter.device.pool.nextAddress + Limiter.cascadeSpan := by
  have within := nextAddress_perform_le rest.sound words
  have cases := perform_cases rest words
  rw [performed] at cases within
  rcases cases with ⟨cause, crash, -⟩ | ⟨-, held⟩
  · exact absurd crash (alive cause)
  · exact ⟨held, within⟩

/-- What holds of no lines, and of a line that does not crash and those behind it, holds of all lines that
were carried out. -/
theorem Follows.rec_alive {motive : BenchLimiter → List (Nat × List Char) → BenchLimiter → Prop}
    (follows : Follows limiter lines printed failures after) (nothing : ∀ limiter, motive limiter [] limiter)
    (line : ∀ {limiter between after : BenchLimiter} {entry : Nat × List Char}
      {rest : List (Nat × List Char)} {outcome : LineOutcome},
      perform (wordsOf entry.2) limiter = (outcome, between) → (∀ cause, outcome ≠ .crashed cause) →
        motive between rest after → motive limiter (entry :: rest) after) :
    motive limiter lines after := by
  induction follows with
  | nothing limiter => exact nothing limiter
  | done performed _ ih => exact line performed nofun ih
  | failed performed _ ih => exact line performed nofun ih

theorem Follows.atRest (follows : Follows limiter lines printed failures after)
    (rest : limiter.AtRest config blocks) :
    after.AtRest config blocks ∧ after.device.pool.nextAddress ≤
      limiter.device.pool.nextAddress + lines.length * Limiter.cascadeSpan := by
  revert rest
  apply follows.rec_alive (motive := fun limiter lines after => limiter.AtRest config blocks →
    after.AtRest config blocks ∧ after.device.pool.nextAddress ≤
      limiter.device.pool.nextAddress + lines.length * Limiter.cascadeSpan)
  · exact fun limiter rest => ⟨rest, Nat.le_add_right _ _⟩
  · intro limiter between after entry later outcome performed alive ih rest
    rcases step_of_perform rest performed alive with ⟨held, within⟩
    rcases ih held with ⟨last, within_later⟩
    rw [List.length_cons, Nat.add_one_mul]
    exact ⟨last, by omega⟩

theorem Follows.failures_le (follows : Follows limiter lines printed failures after) :
    failures ≤ lines.length := by
  induction follows with
  | nothing => exact Nat.le_refl 0
  | done _ _ ih => exact Nat.le_succ_of_le ih
  | failed _ _ ih => exact Nat.succ_le_succ ih

theorem Follows.inside (follows : Follows limiter lines printed failures after)
    (rest : limiter.AtRest config blocks) :
    ∀ entry ∈ lines, ¬Overreaches config (wordsOf entry.2) := by
  revert rest
  apply follows.rec_alive (motive := fun limiter lines _ => limiter.AtRest config blocks →
    ∀ entry ∈ lines, ¬Overreaches config (wordsOf entry.2))
  · simp
  · intro limiter between after entry later outcome performed alive ih rest
    have calm : ¬Overreaches config (wordsOf entry.2) := by
      intro overreaches
      rcases crash_of_overreaches rest overreaches with ⟨cause, crash⟩
      rw [performed] at crash
      exact alive cause crash
    exact List.forall_mem_cons.2 ⟨calm, ih (step_of_perform rest performed alive).1⟩

end ScriptSession

namespace Script

/-- The lines of a text that hold a command, in order, with their numbers. -/
structure Commands (text : List Char) (lines : List (Nat × List Char)) : Prop where
  ascending : lines.Pairwise fun first second => first.1 < second.1
  mem_iff : ∀ number line, (number, line) ∈ lines ↔
    line ≠ [] ∧ 1 ≤ number ∧ ∃ whole, (Text.lines text)[number - 1]? = some whole ∧
      Script.line whole = line

theorem commands_commandLines (text : List Char) : Commands text (commandLines text) where
  ascending := by
    have numbers := List.pairwise_lt_range' (s := 1) (n := ((Text.lines text).map line).length)
    rw [← List.zipIdx_map_snd, List.pairwise_map] at numbers
    exact List.pairwise_map.2 (numbers.filter _)
  mem_iff number words := by
    simp only [commandLines, List.mem_map, List.mem_filter, Prod.exists, Prod.swap_prod_mk, Prod.mk.injEq,
      List.mk_mem_zipIdx_iff_le_and_getElem?_sub, List.getElem?_map, Option.map_eq_some_iff]
    constructor
    · rintro ⟨_, _, ⟨⟨positive, whole⟩, filled⟩, rfl, rfl⟩
      exact ⟨by simpa using filled, positive, whole⟩
    · rintro ⟨filled, positive, whole⟩
      exact ⟨words, number, ⟨⟨positive, whole⟩, by simpa using filled⟩, rfl, rfl⟩

/-- What becomes of a script: it is carried out to its end, or a line of it overreaches, or it has so many
lines that the count of failures or the addresses may not last. -/
inductive Ends (limiter : BenchLimiter) (lines : List (Nat × List Char)) : Execution → Prop where
  /-- Every line is carried out or counted, and in the end no block of memory is handed out. -/
  | carried_out {printed : List String} {failures : Nat} {last : BenchLimiter} {torn : BenchLimiter}
      (follows : ScriptSession.Follows limiter lines printed failures last)
      (inside : ∀ entry ∈ lines, ¬Overreaches limiter.tree.config (wordsOf entry.2))
      (torn_down : Limiter.tearDown last = (.ok (), torn))
      (nothing_leaked : torn.device.pool.outstanding = 0) :
      Ends limiter lines
        (.ofLines (printed ++ ScriptSession.summary failures torn.device) .done)
  | overreached {earlier rest : List (Nat × List Char)} {number : Nat} {line : List Char}
      {printed : List String} {failures : Nat} {between : BenchLimiter} {cause : Fault}
      (split : lines = earlier ++ (number, line) :: rest)
      (follows : ScriptSession.Follows limiter earlier printed failures between)
      (overreaches : Overreaches between.tree.config (wordsOf line)) :
      Ends limiter lines (.ofLines (printed ++ [echo number line]) (.crashed cause))
  | exhausted {printed : List String} {cause : Fault} (many : 2 ^ 31 ≤ lines.length) :
      Ends limiter lines (.ofLines printed (.crashed cause))

section Ends

variable {config : DeviceConfig} {limiter : BenchLimiter}

/-- The addresses that fewer than `2 ^ 31` lines take up, and the tearing down after them, are there. -/
theorem many_of_exhausted {count : Nat} {reached : Nat}
    (started : limiter.device.pool.nextAddress ≤ 2 ^ 33)
    (within : reached ≤ limiter.device.pool.nextAddress + count * Limiter.cascadeSpan +
      (Limiter.cascadeSpan + Limiter.tearDownSpan))
    (full : ¬reached < 2 ^ 64) : 2 ^ 31 ≤ count := by
  by_contra few
  have spans : Limiter.cascadeSpan = 532480 ∧ Limiter.tearDownSpan = 42622976 := by decide
  rw [spans.1, spans.2] at within
  omega

theorem run_ends (rest : limiter.AtRest config 0)
    (started : limiter.device.pool.nextAddress ≤ 2 ^ 33) (text : List Char) :
    Ends limiter (commandLines text)
      (.ofLines (run limiter text).1 (((run limiter text).2.map Ending.crashed).getD .done)) := by
  have runs := ScriptSession.run_runs ⟨limiter, 0⟩ (commandLines text) (Nat.two_pow_pos 31)
  simp only [run]
  generalize ScriptSession.run ⟨limiter, 0⟩ (commandLines text) = ended at runs ⊢
  cases runs with
  | @through printed failures last follows counted =>
      rcases follows.atRest rest with ⟨last_rest, within⟩
      have steady := Limiter.Steady.tearDown last last_rest
      have spent := (Limiter.spends_tearDown last last_rest.sound).2
      simp only [Nat.zero_add] at within ⊢
      rcases torn_down : Limiter.tearDown last with ⟨(cause | cause) | ⟨⟩, torn⟩
      · exact absurd torn_down Limiter.tearDown_ne_error
      · rw [torn_down] at spent
        simp only at spent
        exact .exhausted (many_of_exhausted started (by omega) (steady.of_fault torn_down))
      · have inside := follows.inside rest
        rw [← rest.config_eq] at inside
        exact .carried_out follows inside torn_down (steady.of_ok torn_down).2.outstanding_eq
  | @crashed earlier later number line printed failures between after cause split follows performed =>
      rcases follows.atRest rest with ⟨held, within⟩
      have spent := ScriptSession.nextAddress_perform_le held.sound (wordsOf line)
      have cases := ScriptSession.perform_cases held (wordsOf line)
      rw [performed] at cases spent
      simp only at within spent
      rcases cases with ⟨-, -, overreaches | full⟩ | ⟨alive, -⟩
      · rw [← held.config_eq] at overreaches
        exact .overreached split follows overreaches
      · have within_after : after.device.pool.nextAddress ≤ limiter.device.pool.nextAddress +
            earlier.length * Limiter.cascadeSpan +
              (Limiter.cascadeSpan + Limiter.tearDownSpan) := by omega
        have many := many_of_exhausted started within_after full
        refine .exhausted ?_
        rw [split, List.length_append]
        omega
      · exact absurd rfl (alive cause)
  | @uncounted earlier later number line printed failures between cause split follows full =>
      have few := follows.failures_le
      refine .exhausted ?_
      rw [split, List.length_append, List.length_cons]
      simp only [Nat.zero_add] at full
      omega

end Ends

end Script

namespace Host

open Limiter (start)

variable {host : Host} {invocation : Invocation} {path text : String} {tree : Tree} {bench : Bench}

/-- A script that is run on a limiter that comes up is carried out line by line to its end, whatever its
lines are, unless one of them overreaches; a line that cannot be carried out is counted and nothing
else. -/
theorem scripts_run_to_their_end (read : host.readText path = .ok text)
    (up : start Profile.gen4 invocation.config Bench.fresh = (.ok tree, bench)) :
    ∃ lines, Script.Commands text.toList lines ∧
      Script.Ends ⟨tree, bench⟩ lines (host.runScript invocation path) := by
  refine ⟨Script.commandLines text.toList, Script.commands_commandLines _, ?_⟩
  have rest := Limiter.atRest_of_start Profile.unclipped_gen4.converts up
  have spent := Limiter.nextAddress_le_of_start up
  have started : bench.pool.nextAddress ≤ 2 ^ 33 := Nat.le_trans spent (by decide)
  have ends := Script.run_ends rest started text.toList
  simp only [runScript, read, Invocation.withLimiter, up]
  exact ends

/-- A host on which every path leads to one script. -/
def withScript (script : String) : Host :=
  ⟨.fresh (.willing 0) .zero, fun _ => .ok script.toUTF8⟩

theorem readText_withScript (script path : String) : (withScript script).readText path = .ok script := by
  have valid : script.toUTF8.IsValidUTF8 := script.isValidUTF8
  have decoded : String.fromUTF8? script.toUTF8 = some script := by
    rw [String.fromUTF8?, dif_pos valid]
    rfl
  simp only [readText, withScript, Outcome.bind_eq_ok]
  refine ⟨_, rfl, ?_⟩
  rw [decoded]

/-- A script on a device with one symmetric service and one function. -/
def oneFunction : Invocation := ⟨[.sym], 1, .run "script"⟩

theorem scripts_run_to_their_end_on_bench :
    ∃ lines, Script.Commands "vf 0 sym 1000 2000\nrm leaf:9 # none\n".toList lines ∧
      ∃ limiter, Script.Ends limiter lines
        ((withScript "vf 0 sym 1000 2000\nrm leaf:9 # none\n").runScript oneFunction "script") := by
  have passed : Limiter.comesUpWith Profile.gen4 oneFunction.config (fun _ => true) = true := by
    decide +kernel
  rcases Limiter.exists_start_with passed with ⟨tree, bench, up, -⟩
  rcases scripts_run_to_their_end (readText_withScript _ "script") up with ⟨lines, commands, ends⟩
  exact ⟨lines, commands, ⟨tree, bench⟩, ends⟩

/-- A script whose first line names the largest number as a function ends there, and its other line is
not carried out. -/
theorem scripts_not_always_finished :
    (withScript "vf 4294967295 sym 1 1\nvf 0 sym 1000 2000\n").runScript oneFunction "script" =
      .ofLines ["  1: vf 4294967295 sym 1 1"] (.crashed .addOverflow) := by
  have passed : Limiter.comesUpWith Profile.gen4 oneFunction.config (fun limiter =>
      decide (Script.run limiter "vf 4294967295 sym 1 1\nvf 0 sym 1000 2000\n".toList =
        (["  1: vf 4294967295 sym 1 1"], some .addOverflow))) = true := by
    decide +kernel
  rcases Limiter.exists_start_with passed with ⟨tree, bench, up, ended⟩
  simp only [runScript, readText_withScript, Invocation.withLimiter, up, of_decide_eq_true ended]
  rfl

end Host

end RateTree
