import Mathlib.Algebra.Notation.Defs

/-!
# Return values of the libraries

The constants of `cynara-error.h`.  They are macros: each of them is a number of the type that is
expected where it is used.
-/

namespace Cynara

variable {α : Type}

def CYNARA_API_ACCESS_NOT_RESOLVED [OfNat α 3] : α := 3
def CYNARA_API_ACCESS_ALLOWED [OfNat α 2] : α := 2
def CYNARA_API_ACCESS_DENIED [OfNat α 1] : α := 1
def CYNARA_API_SUCCESS [OfNat α 0] : α := 0

variable [Neg α]

def CYNARA_API_CACHE_MISS [OfNat α 1] : α := -1
def CYNARA_API_MAX_PENDING_REQUESTS [OfNat α 2] : α := -2
def CYNARA_API_INVALID_PARAM [OfNat α 4] : α := -4
def CYNARA_API_SERVICE_NOT_AVAILABLE [OfNat α 5] : α := -5
def CYNARA_API_OPERATION_NOT_ALLOWED [OfNat α 7] : α := -7
def CYNARA_API_CONFIGURATION_ERROR [OfNat α 11] : α := -11
def CYNARA_API_INVALID_COMMANDLINE_PARAM [OfNat α 12] : α := -12
def CYNARA_API_BUFFER_TOO_SHORT [OfNat α 13] : α := -13

end Cynara
