import DeviceAuth.Bytes
import DeviceAuth.Failure
import DeviceAuth.Registry

namespace DeviceAuth

structure Store where
  entries : Registry Bytes := .empty
  readsFail : Bool := false
  writesFail : Bool := false

namespace Store

def load (s : Store) (name : String) : Except StoreFault (Option Bytes) :=
  if s.readsFail then .error .read else .ok (s.entries.get? name)

def save (s : Store) (name : String) (data : Bytes) : Except StoreFault Store :=
  if s.writesFail then .error .write else .ok { s with entries := s.entries.set name data }

def remove (s : Store) (name : String) : Except StoreFault Store :=
  if s.writesFail then .error .write else .ok { s with entries := s.entries.erase name }

-- Answers also while reads fail.
def contains (s : Store) (name : String) : Bool :=
  s.entries.contains name

def setFaults (s : Store) (reads writes : Bool) : Store :=
  { s with readsFail := reads, writesFail := writes }

end Store

end DeviceAuth
