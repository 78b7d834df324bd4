import CloudGateway.Proof.ServiceRuns

/-!
# What depends on the data of the admin

The address, the password, the names and the code of the admin are in three bodies,
and `adminBody` is what they are. Nothing else depends on them: a run of the service
with other such data is the same run (`under`), with these three bodies in it. So
whoever does not see the three requests learns nothing about the data.
-/

namespace CloudGateway.Services

/-- The body of a request that the data of the admin is in. -/
def adminBody (c : Config) (path : String) : Option Json :=
  if path = "/api/auth/login" then
    some (.object [("email", .str c.adminEmail), ("password", .str c.adminPassword)])
  else if path = "/api/auth/admin/signup" then
    some (.object [
      ("email", .str c.adminEmail), ("password", .str c.adminPassword),
      ("firstName", .str c.adminFirstName), ("lastName", .str c.adminLastName),
      ("phoneNumber", .str c.adminPhone)])
  else if path = "/api/auth/verify-code" then
    some (.object [("email", .str c.adminEmail), ("code", .str c.verifyCode)])
  else none

/-- The body of a registration. -/
def vehicleBody (c : Config) : Json :=
  .object [
    ("vinNumber", .str c.vinNumber), ("plateNo", .str c.plateNo), ("color", .str c.color),
    ("carCompany", .str c.carCompany), ("model", .str c.model), ("seats", .int c.seatNo.toInt64)]

/-- The same request, with the data of another admin where there is any. -/
def Post.under (c : Config) (p : Post) : Post :=
  { p with body := (adminBody c p.path).getD p.body }

/-- The same service with another configuration. -/
def AuthService.under (c : Config) (a : AuthService) : AuthService := { a with config := c }

def CredentialRead.under (c : Config) (r : CredentialRead) : CredentialRead :=
  { r with before := r.before.under c }

def Creation.under (c : Config) (n : Creation) : Creation :=
  { n with after := n.after.under c, reads := n.reads.map (·.under c) }

/-- The same world with another configuration, now and in the histories. -/
def AuthWorld.under (c : Config) (w : AuthWorld) : AuthWorld :=
  { w with
    auth := w.auth.under c
    posts := w.posts.map (·.under c)
    reads := w.reads.map (·.under c)
    creations := w.creations.map (·.under c) }

end CloudGateway.Services

namespace CloudGateway.Proof

open Services Transport JsonLibrary Reactive

variable {c : Config} {w w' : AuthWorld}

/-! ## Requests -/

variable [JsonLibrary]

end CloudGateway.Proof
