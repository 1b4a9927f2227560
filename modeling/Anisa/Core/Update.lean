import Mathlib.Data.Option.Basic

namespace anisa.core

/-- When the file `update` of the cache directory was last modified, in milliseconds;
    `none` is that there is no file. -/
abbrev CacheDir := Option Int

/-- `none` is that there is no cache directory. -/
abbrev FileSystem := Option CacheDir

/-- A directory that is made is empty. -/
def ensureDirSync (fs : FileSystem) : CacheDir := fs.getD none

/-- The flag `w` creates the file or truncates it. -/
def openSync (_ : CacheDir) (now : Int) : CacheDir := some now

def ensureCacheFile (fs : FileSystem) (now : Int) : FileSystem := some (openSync (ensureDirSync fs) now)

/-- `none` is the error of a file that is not there. -/
def statSync (fs : FileSystem) : Option Int := fs.join

/-- `now` is what the clock shows during the call. -/
def needsRefresh (fs : FileSystem) (now : Int) : FileSystem × Bool :=
  let fs := ensureCacheFile fs now
  match statSync fs with
  | some mtime =>
    let staleAt := mtime + 1000 * 60 * 60 * 24 * 1
    (fs, staleAt < now)
  | none => (fs, true)

/-- The file is missing, or was last modified more than a day ago. -/
def Stale (fs : FileSystem) (now : Int) : Prop :=
  statSync fs = none ∨ ∃ mtime, statSync fs = some mtime ∧ mtime + 24 * 60 * 60 * 1000 < now

variable {fs : FileSystem} {now : Int}

theorem statSync_ensureCacheFile : statSync (ensureCacheFile fs now) = some now := rfl

/-- The file that is asked about has just been modified. -/
theorem needsRefresh_eq (fs : FileSystem) (now : Int) :
    needsRefresh fs now = (some (some now), false) := by
  have hfresh : ¬ now + 1000 * 60 * 60 * 24 * 1 < now := by omega
  rw [needsRefresh, statSync_ensureCacheFile]
  simp only [hfresh, decide_false]
  rfl

/-- Whether a refresh is needed is told exactly of a file that needs none. -/
theorem needsRefresh_iff (fs : FileSystem) (now : Int) :
    ((needsRefresh fs now).2 = true ↔ Stale fs now) ↔ ¬ Stale fs now := by
  rw [needsRefresh_eq]
  simp

/-- A file that is two days old needs no refresh, and is then as good as new. -/
theorem old_cache_not_refreshed :
    Stale (some (some 0)) (2 * 24 * 60 * 60 * 1000) ∧
      needsRefresh (some (some 0)) (2 * 24 * 60 * 60 * 1000) =
        (some (some (2 * 24 * 60 * 60 * 1000)), false) :=
  ⟨.inr ⟨0, rfl, by decide⟩, by decide⟩

end anisa.core
