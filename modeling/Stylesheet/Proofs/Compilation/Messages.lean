import Stylesheet.Proofs.Compilation.Locations
import Stylesheet.Proofs.Compilation.Recording
import Stylesheet.Proofs.Syntax.Acceptance
import Stylesheet.Proofs.Syntax.Concatenation

/-!
# Texts of messages

A text of debug messages, each of them a literal text, asks its host for the delivery of these
messages in order and for nothing else (`Setting.compile_messages`).
-/

namespace Stylesheet

variable {σ : Type}

/-! ## Statements that say a literal text -/

/-- A debug statement whose message is a literal text, with the span of the statement. -/
structure Message where
  range : Range
  textRange : Range
  text : String
  quoted : Bool
  span : Span

namespace Message

def statement (message : Message) : Statement :=
  .debug message.range (.text message.textRange message.text message.quoted)

def diagnostic (message : Message) : Diagnostic :=
  .debug (messageOf (Value.text message.text message.quoted)) ⟨message.span⟩

end Message

/-- A host that goes on whenever it is asked leaves the machine as it is. -/
theorem Machine.check_of_goes {setting : Setting σ}
    (hgoes : ∀ host, setting.checkCancelled host = .ok () host) (machine : Machine σ) :
    Machine.onHost setting.checkCancelled machine = .ok () machine := by
  rw [Machine.onHost, hgoes]

theorem Message.run_statement {setting : Setting σ} {machine : Machine σ} {message : Message}
    {host : σ} (hgoes : ∀ host, setting.checkCancelled host = .ok () host)
    (hspan : setting.span message.range = .ok message.span)
    (hdeliver : setting.deliver message.diagnostic machine.host = .ok () host)
    (runMixin : List Statement → Run σ Unit) :
    message.statement.run setting runMixin machine = .ok () { machine with host := host } := by
  have hvalue : setting.value (.text message.textRange message.text message.quoted) machine =
      .ok (.text message.text message.quoted) machine := rfl
  have hreport : (setting.checkCancelled >>= fun _ => setting.deliver message.diagnostic)
      machine.host = .ok () host := (bind_of_ok (hgoes machine.host)).trans hdeliver
  rw [statement, Statement.run, bind_of_ok (Machine.check_of_goes hgoes machine),
    bind_of_ok hvalue, hspan]
  change setting.reportUnlessCancelled message.diagnostic machine = _
  rw [Setting.reportUnlessCancelled, Machine.onHost, hreport]

/-- Messages run as their deliveries one after the other. -/
theorem Message.runAll_statements {setting : Setting σ}
    (hgoes : ∀ host, setting.checkCancelled host = .ok () host) {messages : List Message}
    (hspans : ∀ message ∈ messages, setting.span message.range = .ok message.span)
    {machine : Machine σ} {host : σ}
    (hdeliver : Step.runAll setting (messages.map fun message => .report message.diagnostic)
      machine.host = .ok () host) (runMixin : List Statement → Run σ Unit) :
    Statement.runAll setting runMixin (messages.map statement) machine =
      .ok () { machine with host := host } := by
  induction messages generalizing machine with
  | nil =>
    obtain rfl : machine.host = host := (EStateM.Result.ok.inj hdeliver).2
    rw [List.map_nil, Statement.runAll]
    rfl
  | cons message messages ih =>
    rw [List.forall_mem_cons] at hspans
    have hfirst : Step.run setting (.report message.diagnostic) machine.host =
        setting.deliver message.diagnostic machine.host := bind_of_ok (hgoes machine.host)
    rw [List.map_cons, Step.runAll] at hdeliver
    cases hrun : setting.deliver message.diagnostic machine.host with
    | ok _ next =>
      rw [bind_of_ok (hfirst.trans hrun)] at hdeliver
      rw [List.map_cons, Statement.runAll,
        bind_of_ok (message.run_statement hgoes hspans.1 hrun runMixin)]
      exact ih hspans.2 hdeliver
    | error error next =>
      rw [bind_of_error (hfirst.trans hrun)] at hdeliver
      contradiction

/-- A text of messages, to a host that goes on and takes them. -/
theorem Setting.compile_messages {setting : Setting σ} {source : String}
    {messages : List Message} {host host' : σ}
    (hparse : parse source = .ok (messages.map Message.statement))
    (hgoes : ∀ host, setting.checkCancelled host = .ok () host)
    (hspans : ∀ message ∈ messages, setting.span message.range = .ok message.span)
    (hdeliver : Step.runAll setting (messages.map fun message => .report message.diagnostic) host =
      .ok () host') :
    setting.compile source host = (.ok "", host') := by
  let machine : Machine σ := { host := host }
  have hblock (depth : Nat) : runBlock setting depth (messages.map Message.statement) machine =
      .ok () { machine with host := host' } := by
    rw [runBlock_eq]
    exact Message.runAll_statements hgoes hspans hdeliver _
  have heval : evaluate setting (messages.map Message.statement) machine =
      .ok "" { machine with host := host' } := by
    rw [evaluate, bind_of_ok (hblock _), bind_of_ok (Machine.check_of_goes hgoes _)]
    rfl
  rw [setting.compile_of_parse_eq_ok hparse, heval]
  rfl

/-! ## Short texts of messages -/

theorem parse_debug_hash :
    parse "@debug #;" = .ok [.debug ⟨0, 8⟩ (.text ⟨7, 8⟩ "#" false)] := by
  have hprimary : (Cursor.mk 6 (some 'g') [' ', '#', ';']).skipTrivia.primary =
      .ok ⟨.text ⟨7, 8⟩ "#" false, ⟨8, some '#', [';']⟩, by decide⟩ := by
    rw [Cursor.primary]
    rfl
  exact parse_debug rfl (Cursor.reaches_expr_of_primary rfl ⟨_, hprimary⟩ rfl) rfl

theorem parse_debug_hash_twice :
    parse "@debug #;@debug #;" = .ok [.debug ⟨0, 8⟩ (.text ⟨7, 8⟩ "#" false),
      .debug ⟨9, 17⟩ (.text ⟨16, 17⟩ "#" false)] := by
  have hend (gap : Cursor) (hgap : Cursor.IsGap "@debug #;" gap) :
      ¬Lexeme.EndsInComment gap.rest := by
    intro hcomment
    obtain ⟨front, hfront, -⟩ := Cursor.exists_front hgap.start_le
    have hslash : '/' ∈ "@debug #;".toList :=
      hfront ▸ List.mem_append_right front hcomment.slash_mem
    revert hslash
    decide
  have htwice : "@debug #;@debug #;" = "@debug #;" ++ "@debug #;" := by decide
  rw [htwice, parse_append_eq parse_debug_hash hend, parse_debug_hash]
  rfl

/-- The message of this text, in a file. -/
def Message.hash (url : Option Url) (includeContext : Bool) : Message :=
  ⟨⟨0, 8⟩, ⟨7, 8⟩, "#", false, Span.image [] "@debug #".toList [';'] url includeContext⟩

theorem span_debug_hash (options : CompileOptions σ) (url : Option Url) :
    (options.setting url "@debug #;").span ⟨0, 8⟩ =
      .ok (Message.hash url options.includeContext).span := by
  have hcut : (Range.mk 0 8).Cuts "@debug #;" [] "@debug #".toList [';'] :=
    ⟨by decide, by decide, by decide⟩
  exact hcut.span_eq options url

/-- The only message of a text, to a host that goes on and takes it. -/
theorem Setting.compile_debug_hash {setting : Setting σ} {url : Option Url}
    {includeContext : Bool} {host host' : σ}
    (hspan : setting.span ⟨0, 8⟩ = .ok (Message.hash url includeContext).span)
    (hgoes : ∀ host, setting.checkCancelled host = .ok () host)
    (hdeliver : setting.deliver (Message.hash url includeContext).diagnostic host =
      .ok () host') :
    setting.compile "@debug #;" host = (.ok "", host') := by
  have hparse : parse "@debug #;" =
      .ok ([Message.hash url includeContext].map Message.statement) := parse_debug_hash
  refine compile_messages hparse hgoes ?_ ?_
  · exact List.forall_mem_singleton.mpr hspan
  · exact bind_of_ok ((bind_of_ok (hgoes host)).trans hdeliver)

theorem compile_debug_hash {options : CompileOptions σ} {url : Option Url} {host host' : σ}
    (hgoes : ∀ host, (options.setting url "@debug #;").checkCancelled host = .ok () host)
    (hdeliver : (options.setting url "@debug #;").deliver
      (Message.hash url options.includeContext).diagnostic host = .ok () host') :
    compile options url "@debug #;" host = (.ok "", host') :=
  Setting.compile_debug_hash (span_debug_hash options url) hgoes hdeliver

/-- The only message of this text is all that it reports. -/
theorem reports_debug_hash (url : Option Url) (includeContext : Bool) :
    reports url "@debug #;" includeContext = [(Message.hash url includeContext).diagnostic] := by
  let message := Message.hash url includeContext
  let listening := Setting.listening url "@debug #;" includeContext
  have hspan : listening.span ⟨0, 8⟩ = .ok message.span := by
    let options : CompileOptions Unit :=
      { logger := .silent, fallback := fun _ => pure (), includeContext }
    exact span_debug_hash options url
  have hdeliver : listening.deliver message.diagnostic [] = .ok () [message.diagnostic] := rfl
  rw [reports, Setting.compile_debug_hash hspan (fun _ => rfl) hdeliver]

end Stylesheet
