import Balancer.Digest.Md5

/-!
# Names of cloud resources

A load balancer and a target group are found again by name alone, so a name is a function of what the resource
belongs to. `lbHashed` and `tgHashed` are the texts whose digests keep names apart.
-/

namespace Balancer.Identity

set_option autoImplicit false

/-- A letter or a digit of ASCII. -/
def isPlain (c : Char) : Bool := c.isAlphanum

/-- A text with a hyphen in place of every character that is not plain. -/
def hyphenated (s : String) : List Char := s.toList.map fun c => if isPlain c then c else '-'

/-- The plain characters of a text. -/
def plain (s : String) : List Char := s.toList.filter isPlain

/-- The most characters of a load balancer's name before its digest. -/
def lbBodyLength : Nat := 26

/-- The text whose digest ends the name of a Service's load balancer. -/
def lbHashed (ns service : String) : String := ns ++ service

/-- The name of the load balancer of a Service. -/
def lbName (stem ns service : String) : String :=
  let body := hyphenated stem ++ '-' :: plain ns ++ plain service
  String.ofList (body.take lbBodyLength ++ '-' :: (Digest.md5Hex (lbHashed ns service)).toList.take 4)

/-- The text whose digest ends the name of a backend's target group. -/
def tgHashed (stem ns service backend port targetType protocol : String) : String :=
  lbName stem ns service ++ backend ++ port ++ protocol ++ targetType

/-- The name of the target group of one backend of a Service. -/
def tgName (stem ns service backend port targetType protocol : String) : String :=
  let digest := Digest.md5Hex (tgHashed stem ns service backend port targetType protocol)
  String.ofList (stem.toList.take 12 ++ '-' :: digest.toList.take 19)

end Balancer.Identity
