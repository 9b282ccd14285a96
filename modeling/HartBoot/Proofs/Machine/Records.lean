import HartBoot.Proofs.Console.Text
import HartBoot.Proofs.Machine.Entry

/-!
Records that the board logs. Where the port in use takes everything, a record is sent as a whole if the filter admits it
and dropped if it does not (`log_sends`), so what is sent of several is the text of those that the filter admits
(`logs_send`). While logging is off nothing is done at all (`log_silent`).
-/
namespace HartBoot.Machine

/-- The text of the records that a filter admits. -/
def sentText (filter : Log.Filter) (records : List Log.Record) : String :=
  String.join ((records.filter fun r => filter.admits r.level).map Log.Record.text)

theorem sentText_append (filter : Log.Filter) (records more : List Log.Record) :
    sentText filter (records ++ more) = sentText filter records ++ sentText filter more := by
  simp [sentText]

theorem sentText_admitted {filter : Log.Filter} {r : Log.Record} (admitted : filter.admits r.level = true) :
    sentText filter [r] = r.text := by
  simp [sentText, admitted]

theorem sentText_refused {filter : Log.Filter} {r : Log.Record} (refused : ¬ filter.admits r.level = true) :
    sentText filter [r] = "" := by
  simp [sentText, refused]

/-- A board that has sent to the port in use what it admits of the records. -/
def Board.logged (b : Board) (records : List Log.Record) : Board :=
  b.said (b.console.told (sentText b.filter records))

/-- A record about the hart numbered `hart`. -/
def hartRecord (hart : Word) (position : Log.Position) (level : Log.Level) (message : String) : Log.Record :=
  ⟨level, "hart " ++ decimal hart ++ ": " ++ message, position⟩

theorem logged_nil (b : Board) : b.logged [] = b := by
  have nothing : sentText b.filter [] = "" := rfl
  rw [Board.logged, nothing, Console.told_empty]
  rfl

theorem logged_logged (b : Board) (records more : List Log.Record) :
    (b.logged records).logged more = b.logged (records ++ more) := by
  rw [Board.logged, Board.logged, Board.logged, sentText_append, ← Console.told_told]
  rfl

theorem log_silent {b : Board} (off : b.filter = .off) (level : Log.Level) (message : String) :
    log level message b = .ok () b := by
  have refused : ¬ b.filter.admits level = true := by simp [off, Log.Filter.admits]
  unfold log
  rw [bind_of_ok (get_run b), if_neg refused]
  rfl

section
variable {b : Board} (free : b.console.locked = false)
include free

theorem logged_free (records : List Log.Record) : (b.logged records).console.locked = false :=
  (Console.locked_told _ _).trans free

variable (accepts : b.console.Accepts)
include accepts

theorem log_sends (level : Log.Level) (message : String) :
    log level message b = .ok () (b.logged [⟨level, message, b.position⟩]) := by
  unfold log
  rw [bind_of_ok (get_run b), Board.logged]
  by_cases admitted : b.filter.admits level = true
  · have printed := Console.print_accepts free accepts
      (Log.inColor level.color [Log.Record.line ⟨level, message, b.position⟩])
    rw [if_pos admitted, sentText_admitted admitted]
    refine onConsole_run ?_
    rw [printed]
    rfl
  · rw [if_neg admitted, sentText_refused admitted, Console.told_empty]
    rfl

theorem report_sends (run : Word → BoardM Unit) (level : Log.Level) (message : String) :
    (opsWith run).report level message b = .ok () (b.logged [hartRecord (b.csr .mhartid) b.position level message]) :=
  log_sends free accepts level _

end

theorem logs_send {records : List Log.Record} {b : Board} (free : b.console.locked = false)
    (accepts : b.console.Accepts) (placed : ∀ r ∈ records, r.position = b.position) :
    records.forM (fun r => log r.level r.message) b = .ok () (b.logged records) := by
  induction records generalizing b with
  | nil =>
    rw [logged_nil]
    rfl
  | cons r records ih =>
    have here : r.position = b.position := placed r List.mem_cons_self
    have first := log_sends free accepts r.level r.message
    rw [← here] at first
    have rest := ih (logged_free free [r]) (accepts.told _) fun other member =>
      placed other (List.mem_cons_of_mem r member)
    change (log r.level r.message >>= fun _ => records.forM _) b = _
    rw [bind_of_ok first, rest, logged_logged]
    rfl

end HartBoot.Machine
