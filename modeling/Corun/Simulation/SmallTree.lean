import Corun.Simulation.FileTree

namespace Corun.Os.FileTree

def programs : List (String × Node) :=
  [("sh", .link "dash"), ("dash", .program .shell), ("sleep", .program .sleep),
   ("true", .program .succeed), ("false", .program .fail), ("echo", .program .echo),
   ("env", .program .env), ("test", .program .test), ("[", .program .test), ("cat", .program .cat),
   ("printf", .program .printf), ("timeout", .program .timeout), ("seq", .program .seq),
   ("head", .program .head), ("expr", .program .expr), ("yes", .program .yes),
   ("nohup", .program .nohup), ("nice", .program .nice), ("setsid", .program .setsid),
   ("printenv", .program .printenv), ("pwd", .program .pwd)]

def emptyDirectory : Node := .directory []

def emptyDirectories (names : List String) : List (String × Node) :=
  names.map fun name => (name, emptyDirectory)

def texts (entries : List (String × String)) : List (String × Node) :=
  entries.map fun e => (e.1, .text e.2)

def devices : List (String × Node) :=
  [("null", .device .null), ("zero", .device .zero), ("full", .device .full),
   ("random", .device .random), ("urandom", .device .random), ("tty", .device .terminal),
   ("stdin", .device (.descriptor 0)), ("stdout", .device (.descriptor 1)),
   ("stderr", .device (.descriptor 2)),
   ("fd", .directory ((List.range 10).map fun n => (toString n, .device (.descriptor n)))),
   ("pts", emptyDirectory), ("shm", emptyDirectory)]

def settings : List (String × Node) :=
  texts
    [("passwd", "root:x:0:0:root:/root:/bin/sh\nnobody:x:65534:65534:nobody:/:/bin/false\n"),
     ("group", "root:x:0:\nnogroup:x:65534:\n"), ("shadow", "root:*:20000:0:99999:7:::\n"),
     ("gshadow", "root:*::\n"), ("hostname", "small\n"), ("hosts", "127.0.0.1\tlocalhost\n"),
     ("host.conf", "multi on\n"), ("resolv.conf", "# none\n"), ("nsswitch.conf", "# databases\n"),
     ("shells", "# /etc/shells: valid login shells\n/bin/sh\n"), ("fstab", "# UNCONFIGURED\n"),
     ("profile", "# /etc/profile\n"), ("bash.bashrc", "# System-wide\n"), ("environment", ""),
     ("issue", "Small \\n \\l\n"), ("motd", "\nWelcome\n"), ("debian_version", "13.0\n"),
     ("ld.so.conf", "include /etc/ld.so.conf.d/*.conf\n"), ("login.defs", "#\n"),
     ("debconf.conf", "# This is the main config file\n"), ("deluser.conf", "# deluser\n"),
     ("adduser.conf", "# adduser\n"), ("timezone", "Etc/UTC\n"), ("subuid", ""), ("subgid", "")]
  ++ [("mtab", .link "/proc/mounts"), ("os-release", .link "../usr/lib/os-release"),
      ("localtime", .link "/usr/share/zoneinfo/Etc/UTC")]
  ++ emptyDirectories ["apt", "cron.daily", "default", "dpkg", "init.d", "ld.so.conf.d", "opt",
      "pam.d", "profile.d", "security", "selinux", "skel", "systemd", "terminfo"]

def kernelSettings : List (String × Node) :=
  texts
    [("ostype", "Linux\n"), ("osrelease", "6.1.0\n"), ("pid_max", "4194304\n"),
     ("hostname", "small\n"), ("threads-max", "65536\n"), ("version", "#1 SMP\n")]

def processFiles : List (String × Node) :=
  texts
    [("status", "Name:\tcorun\n"), ("stat", "1 (corun) R 0\n"), ("comm", "corun\n"),
     ("cmdline", "corun\x00"), ("limits", "Limit\n"), ("mounts", "overlay / overlay rw 0 0\n"),
     ("cgroup", "0::/\n"), ("mountinfo", "1 0 0:1 / / rw - overlay overlay rw\n"),
     ("maps", "00400000-00401000 r-xp 00000000 00:00 0\n"), ("statm", "1 1 1 1 0 1 0\n"),
     ("oom_score", "0\n"), ("environ", "PATH=/usr/bin\x00"), ("io", "rchar: 0\n")]
  ++ [("exe", .link "/usr/bin/corun"), ("cwd", .link "/work"), ("root", .link "/"),
      ("fd", .link "/dev/fd")]

def systemFiles : List (String × Node) :=
  texts
    [("cpuinfo", "processor\t: 0\n"), ("meminfo", "MemTotal: 4194304 kB\n"),
     ("version", "Linux version 6.1.0\n"), ("filesystems", "nodev\tsysfs\n"),
     ("uptime", "100.00 400.00\n"), ("loadavg", "0.00 0.00 0.00 1/100 100\n"),
     ("stat", "cpu  0 0 0 0\n"), ("vmstat", "nr_free_pages 1000\n"), ("swaps", "Filename\n"),
     ("devices", "Character devices:\n"), ("partitions", "major minor  #blocks  name\n"),
     ("cmdline", "console=ttyS0\n"), ("cgroups", "#subsys_name\n"), ("modules", ""),
     ("interrupts", "           CPU0\n"), ("softirqs", "                    CPU0\n"),
     ("iomem", "00000000-00000000 : Reserved\n"), ("ioports", "0000-0000 : PCI\n"),
     ("kallsyms", "0000000000000000 T _text\n"), ("crypto", "name         : sha256\n"),
     ("diskstats", "   7       0 loop0\n"), ("zoneinfo", "Node 0, zone      DMA\n"),
     ("buddyinfo", "Node 0, zone      DMA\n"), ("consoles", "ttyS0\n"), ("locks", ""),
     ("misc", "130 btrfs-control\n"), ("key-users", "    0:     1 1/1\n"), ("keys", ""),
     ("execdomains", "0-0\tLinux\n"), ("fb", ""), ("slabinfo", "slabinfo - version: 2.1\n"),
     ("timer_list", "Timer List Version: v0.9\n"), ("mdstat", "Personalities : \n")]
  ++ [("self", .link "1"), ("thread-self", .link "1"), ("1", .directory processFiles),
      ("mounts", .link "self/mounts"), ("net", emptyDirectory), ("fs", emptyDirectory),
      ("sys", .directory [("kernel", .directory kernelSettings), ("vm", emptyDirectory),
        ("fs", emptyDirectory), ("net", emptyDirectory)])]

def shared : List (String × Node) :=
  [("bin", .directory programs),
   ("lib", .directory (("os-release", .text "PRETTY_NAME=\"Small\"\nNAME=\"Small\"\n")
     :: emptyDirectories ["apt", "dpkg", "systemd"])),
   ("share", .directory (emptyDirectories ["doc", "man", "misc"]))]
  ++ emptyDirectories ["games", "include", "lib64", "libexec", "sbin", "src"]
  ++ [("local", .directory
      (emptyDirectories ["bin", "etc", "games", "include", "lib", "sbin", "share", "src"]))]

def smallRoot : Node := .directory <|
  [("bin", .link "usr/bin"), ("sbin", .link "usr/sbin"), ("lib", .link "usr/lib"),
   ("lib64", .link "usr/lib64"), ("dev", .directory devices), ("etc", .directory settings),
   ("proc", .directory systemFiles), ("usr", .directory shared),
   ("var", .directory ((emptyDirectories ["backups", "cache", "lib", "local", "log", "mail", "opt",
     "spool", "tmp"]) ++ [("lock", .link "/run/lock"), ("run", .link "/run")])),
   ("run", .directory (emptyDirectories ["lock"])),
   ("sys", .directory (emptyDirectories ["block", "bus", "class", "dev", "devices", "firmware", "fs",
     "kernel", "module", "power"]))]
  ++ emptyDirectories ["boot", "home", "media", "mnt", "opt", "root", "srv", "tmp", "work"]

/-- The tree of a small machine. Relative paths start in an empty directory below the root. -/
def small : FileTree := ⟨smallRoot, ["work"]⟩

end Corun.Os.FileTree
