/-
A small program to try the analysis on. It has one finding: the first
query takes the index in a lambda that has to become SQL. The last one
takes it too, but only in memory.
-/
namespace QueryLint.Sample

/-- The path that the program is analyzed under. -/
def path : String := "<sample>"

/-- The lines of the program. -/
def lines : List String :=
  ["",
   "using System.Data.Entity;",
   "using System.Linq;",
   "",
   "namespace Acme.Demo",
   "\x7b",
   "    public class User",
   "    \x7b",
   "        public int Id \x7b get; set; \x7d",
   "        public string Name \x7b get; set; \x7d",
   "    \x7d",
   "",
   "    public class AppDbContext : DbContext",
   "    \x7b",
   "        public DbSet<User> Users \x7b get; set; \x7d",
   "    \x7d",
   "",
   "    public class UserService",
   "    \x7b",
   "        private readonly AppDbContext db = new AppDbContext();",
   "",
   "        public object FirstFive()",
   "        \x7b",
   "            // Translated to SQL: the index parameter is not supported",
   "            return db.Users.Where((u, i) => i < 5).ToList();",
   "        \x7d",
   "",
   "        public object Names()",
   "        \x7b",
   "            return db.Users.Select(u => u.Name).ToList();",
   "        \x7d",
   "",
   "        public object NumberedLocally()",
   "        \x7b",
   "            // AsEnumerable switches to LINQ to Objects, so this one is fine",
   "            return db.Users.AsEnumerable().Select((u, i) => i + \": \" + u.Name).ToList();",
   "        \x7d",
   "    \x7d",
   "\x7d"]

/-- The text of the program. -/
def text : String := String.join (lines.map (· ++ "\n"))

end QueryLint.Sample
