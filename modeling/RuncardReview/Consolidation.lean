import RuncardReview.Distinct
import RuncardReview.Result

/-!
# One result for each rule type

Several groups may bring rules of one type.  Their results are folded into one:
the worst lamp, and the evidence of all, with the name of the group in front of
each key.  Where two entries have the same key even so, the later one takes the
place of the earlier one.  The groups that took part are listed under
`repeatedGroups`.
-/

namespace RuncardReview
namespace Consolidation

/-- The key that names the group a result comes from. -/
def groupKey : String := "group"

/-- The key that lists the groups a consolidated result comes from. -/
def repeatedGroupsKey : String := "repeatedGroups"

/-- The group that a result says it comes from, if it names one. -/
def tag? (r : Result) : Option String :=
  match r.detail.get? groupKey with
  | some (.text name) => if name = "" then none else some name
  | _ => none

/-- The key under which evidence of a group is kept. -/
def mergedKey (tag : Option String) (key : String) : String :=
  match tag with
  | some name => name ++ "_" ++ key
  | none => key

/-- What has been gathered for one rule type. -/
structure Bucket where
  ruleType : String
  lamp : Lamp
  detail : Detail
  groups : List String

namespace Bucket

def empty (ruleType : String) : Bucket :=
  ⟨ruleType, .skip, Entries.empty, []⟩

def absorb (b : Bucket) (r : Result) : Bucket :=
  let tag := tag? r
  { b with
    lamp := max b.lamp r.lamp
    detail := (r.detail.erase groupKey).toList.foldl
      (fun d e => d.insert (mergedKey tag e.1) e.2) b.detail
    groups := Distinct.addAllNew b.groups tag.toList }

def finish (b : Bucket) : Result :=
  if b.groups.isEmpty then ⟨b.ruleType, b.lamp, b.detail⟩
  else ⟨b.ruleType, b.lamp, b.detail.insert repeatedGroupsKey (.texts b.groups)⟩

end Bucket

/-- Adds a result to the bucket of its rule type, or to a new one at the end. -/
def gather (r : Result) : List Bucket → List Bucket
  | [] => [(Bucket.empty r.ruleType).absorb r]
  | b :: bs => if b.ruleType = r.ruleType then b.absorb r :: bs else b :: gather r bs

/-- The buckets of some results, in order of first appearance. -/
def buckets (entries : List Result) : List Bucket :=
  entries.foldl (fun bs r => gather r bs) []

/-- One result for each rule type, in order of first appearance. -/
def consolidate (entries : List Result) : List Result :=
  (buckets entries).map Bucket.finish

end Consolidation
end RuncardReview
