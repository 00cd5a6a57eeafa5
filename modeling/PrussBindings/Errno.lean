/-!
# Error numbers

The Linux error numbers that the driver, the daemon and the clients return,
always negated.
-/

namespace Errno

def EPERM : Int := 1
def ENOENT : Int := 2
def EINTR : Int := 4
def EAGAIN : Int := 11
def ENOMEM : Int := 12
def EACCES : Int := 13
def EFAULT : Int := 14
def EBUSY : Int := 16
def ENODEV : Int := 19
def EISDIR : Int := 21
def EINVAL : Int := 22
def ENOSPC : Int := 28
def ETIME : Int := 62
def ECONNREFUSED : Int := 111
def EALREADY : Int := 114

end Errno
