/-!
# Failures

A lookup fails when the backend behind it does; a check fails for one of a few
causes.  Besides failing, either may break off without an answer at all; what it
leaves behind then is a payload.
-/

namespace RuncardReview

/-- A lookup that the backend could not serve. -/
structure SourceError where
  what : String
  reason : String
  deriving DecidableEq

def SourceError.message (e : SourceError) : String :=
  e.what ++ " lookup failed: " ++ e.reason

/-- What is left of a computation that broke off: a text, or something else. -/
inductive Payload
  | text (s : String)
  | other
  deriving DecidableEq

def Payload.message : Payload → String
  | text s => s
  | other => "non-string panic payload"

/-- How a computation ends: with an answer, with an error, or broken off. -/
inductive Outcome (ε α : Type)
  | ok (a : α)
  | error (e : ε)
  | panicked (p : Payload)
  deriving DecidableEq

/-- Why a check could not be completed. -/
inductive CheckError
  | unknownRuleType (ruleType : String)
  | missingRecord (what runcard : String)
  | malformedData (field value : String)
  | panicked (message : String)
  | source (e : SourceError)
  deriving DecidableEq

def CheckError.message : CheckError → String
  | unknownRuleType t => "unknown rule type '" ++ t ++ "'"
  | missingRecord what runcard => "missing " ++ what ++ " for runcard '" ++ runcard ++ "'"
  | malformedData field value => "malformed " ++ field ++ ": '" ++ value ++ "'"
  | panicked message => "check panicked: " ++ message
  | source e => e.message

end RuncardReview
