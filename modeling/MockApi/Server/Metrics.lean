import MockApi.Route.Dispatch

/-!
# Metrics

A server counts the requests that it has dispatched since it began to count: all of them, those that
an endpoint answered and those that none did, those whose response was no JSON, and all by their
methods.
-/

namespace MockApi

/-- Counts of dispatched requests since a time. -/
structure Metrics where
  /-- All requests. -/
  total : Nat
  /-- Requests that an endpoint answered. -/
  matched : Nat
  /-- Requests that no endpoint answered. -/
  unmatched : Nat
  /-- Requests whose response was no JSON. -/
  renderErrors : Nat
  /-- All requests by method, in order of first appearance. -/
  byMethod : Table Nat
  /-- The time since which requests are counted. -/
  start : Text
deriving DecidableEq, Repr

namespace Metrics

/-- The counts before any request, at a time. -/
def zero (start : Text) : Metrics := ⟨0, 0, 0, 0, [], start⟩

/-- A table of counts with one more under a name. -/
def countIn (counts : Table Nat) (name : Text) : Table Nat :=
  counts.insert name ((counts.get? name).getD 0 + 1)

/-- The counts after one more request with the given method and result. -/
def record (metrics : Metrics) (method : Text) (result : DispatchResult) : Metrics :=
  let metrics := { metrics with
    total := metrics.total + 1
    byMethod := countIn metrics.byMethod method }
  match result with
  | .notFound .. => { metrics with unmatched := metrics.unmatched + 1 }
  | .served answer => match answer.body with
    | .ok _ => { metrics with matched := metrics.matched + 1 }
    | .error _ => { metrics with
        matched := metrics.matched + 1
        renderErrors := metrics.renderErrors + 1 }

/-- The percentage of requests that an endpoint answered, to two places. -/
def matchRate (metrics : Metrics) : Value :=
  if metrics.total = 0 then .int 0
  else .double (((Double.ofRatio false metrics.matched metrics.total).mul
    (Double.ofRatio false 100 1)).roundPlaces 2)

/-- Counts under names as an object. -/
def countsValue (counts : Table Nat) : Value :=
  .ofEntries (counts.map fun (name, n) ↦ (name, .int n))

/-- The counts as entries, after so many seconds of counting. -/
def entries (metrics : Metrics) (uptime : Double) : Entries :=
  [("total_requests", .int metrics.total), ("matched_requests", .int metrics.matched),
    ("unmatched_requests", .int metrics.unmatched), ("render_errors", .int metrics.renderErrors),
    ("requests_by_method", countsValue metrics.byMethod), ("match_rate", metrics.matchRate),
    ("uptime_seconds", .double uptime), ("start_time", .text metrics.start)]

end Metrics

end MockApi
