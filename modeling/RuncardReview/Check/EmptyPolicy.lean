import RuncardReview.Result
import RuncardReview.Rule

/-!
# What a check says when there is no data

When a lookup finds nothing, a check skips, passes or fails.  The setting
`emptyDataPolicy` of the rule decides, in any ASCII case; every check has its
own default.
-/

namespace RuncardReview

open Text

/-- What a check says when its lookup found nothing. -/
inductive EmptyPolicy
  | skip
  | pass
  | fail
  deriving DecidableEq

namespace EmptyPolicy

def ofName? (s : String) : Option EmptyPolicy :=
  if s = "skip" then some skip
  else if s = "pass" then some pass
  else if s = "fail" then some fail
  else none

def name : EmptyPolicy → String
  | skip => "skip"
  | pass => "pass"
  | fail => "fail"

/-- The policy of a rule, or the default where its setting names none. -/
def ofRule (r : Rule) (default : EmptyPolicy) : EmptyPolicy :=
  match r.settings with
  | none => default
  | some s => (ofName? (lowerAscii (s.text "emptyDataPolicy" ""))).getD default

/-- The verdict when there is no such thing. -/
def verdict (p : EmptyPolicy) (what : String) : Verdict :=
  match p with
  | skip => Verdict.skip ("No " ++ what ++ " => skip check")
  | pass => (Verdict.ofLamp .pass).note "msg" (.text ("No " ++ what))
  | fail => (Verdict.ofLamp .fail).note "error" (.text ("No " ++ what ++ " found"))

end EmptyPolicy
end RuncardReview
