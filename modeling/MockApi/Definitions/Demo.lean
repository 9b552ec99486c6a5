import MockApi.Endpoint.Definition

/-!
# The demonstration endpoints

Two endpoints to try things out with: one echoes what it was asked, the other has a slow answer for
one value of a parameter.
-/

namespace MockApi.Definitions

/-- The text of some lines. -/
def ofLines (lines : List Text) : Text := Text.join "\n" lines

/-- The users of the demonstration: the identifier `error` is answered with an error. -/
def demoUsers : Endpoint where
  path := "/users/:id"
  method := .get
  response := ⟨200, 0, ofLines ["\x7b",
    "  \"status\": \"success\",",
    "  \"message\": \"User \x7b\x7bpath.id\x7d\x7d details retrieved.\",",
    "  \"query_filter\": \"\x7b\x7bquery.filter\x7d\x7d\",",
    "  \"data_received\": \x7b\x7bbody\x7d\x7d",
    "\x7d"]⟩
  headers := []
  scenarios := [⟨"Error Scenario", "path.id === 'error'", 404, 500, ofLines ["\x7b",
    "  \"error\": \"User \x7b\x7bpath.id\x7d\x7d not found or is disabled.\"",
    "\x7d"]⟩]
  createdAt := .null
  updatedAt := .null

/-- The orders of the demonstration: pending orders take their time. -/
def demoOrders : Endpoint where
  path := "/orders"
  method := .get
  response := ⟨200, 100, ofLines ["\x7b",
    "  \"status\": \"success\",",
    "  \"count\": 50,",
    "  \"query_status\": \"\x7b\x7bquery.status\x7d\x7d\",",
    "  \"message\": \"Successfully fetched 50 orders.\"",
    "\x7d"]⟩
  headers := []
  scenarios := [⟨"Pending Orders Response", "query.status === 'pending'", 202, 2000, ofLines [
    "\x7b",
    "  \"status\": \"processing\",",
    "  \"count\": 5,",
    "  \"message\": \"Only 5 pending orders found. Please wait 2 seconds.\"",
    "\x7d"]⟩]
  createdAt := .null
  updatedAt := .null

/-- The endpoints of the demonstration. -/
def demo : List Endpoint := [demoUsers, demoOrders]

end MockApi.Definitions
